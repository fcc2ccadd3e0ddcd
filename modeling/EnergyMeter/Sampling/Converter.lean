import EnergyMeter.Fault

/-!
# The converter

An analog-to-digital converter that replays a script. Each read takes the front of the
script, whichever input it is for: a conversion that is done, one that fails, or one that
needs so many more reads. After the script every conversion gives zero.
-/
namespace EnergyMeter

inductive Conversion where
  | done (raw : Int16)
  | busy (reads : Nat)
  | failed (code : Nat)
  deriving DecidableEq, Repr

inductive Reading where
  | pending
  | value (raw : Int16)
  | failure (code : Nat)
  deriving DecidableEq, Repr

/-- A converter: what it has yet to replay, and the input of every read so far. -/
structure Converter where
  script : List Conversion := []
  reads : Array AnalogInput := #[]
  deriving DecidableEq, Repr

namespace Converter

def append (converter : Converter) (script : List Conversion) : Converter :=
  { converter with script := converter.script ++ script }

/-- What a read answers, and the script it leaves. A wait of no reads answers none. -/
def next : List Conversion → Reading × List Conversion
  | [] => (.value 0, [])
  | .done raw :: rest => (.value raw, rest)
  | .failed code :: rest => (.failure code, rest)
  | .busy 0 :: rest => next rest
  | .busy 1 :: rest => (.pending, rest)
  | .busy (more + 2) :: rest => (.pending, .busy (more + 1) :: rest)

def read (converter : Converter) (input : AnalogInput) : Reading × Converter :=
  let (reading, script) := next converter.script
  (reading, { script, reads := converter.reads.push input })

/-- The reads that a script can keep pending. -/
def pendingBound : List Conversion → Nat
  | [] => 0
  | .busy reads :: rest => reads + pendingBound rest
  | _ :: rest => pendingBound rest

theorem pendingBound_next_lt {script : List Conversion} (h : (next script).1 = .pending) :
    pendingBound (next script).2 < pendingBound script := by
  induction script with
  | nil => simp [next] at h
  | cons item rest ih =>
    match item with
    | .done _ => simp [next] at h
    | .failed _ => simp [next] at h
    | .busy 0 => simpa [next, pendingBound] using ih (by simpa [next] using h)
    | .busy 1 => simp [next, pendingBound]
    | .busy (more + 2) => simp [next, pendingBound]

/-- Reads an input until its conversion is done or has failed. -/
def convert (converter : Converter) (input : AnalogInput) : Except Nat Int16 × Converter :=
  let after := (converter.read input).2
  match _h : (converter.read input).1 with
  | .value raw => (.ok raw, after)
  | .failure code => (.error code, after)
  | .pending => after.convert input
termination_by pendingBound converter.script
decreasing_by exact pendingBound_next_lt _h

def describe (_ : Converter) : String := "Adc"

end Converter

end EnergyMeter
