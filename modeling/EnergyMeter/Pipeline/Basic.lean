import EnergyMeter.Billing.ActivePlan
import EnergyMeter.Billing.Cycle
import EnergyMeter.Sampling.Intake
import EnergyMeter.Stage.Channels

/-!
# The metering pipeline

The whole meter: the intake posts pairs to the voltage and the current consumer, and the
current consumer passes them on to the cycle meter. A consumer takes a sample only when it
is served, so interrupts and consumers may interleave in any order.
-/
namespace EnergyMeter

structure Pipeline where
  intake : Intake := {}
  queues : SampleQueues := {}
  voltage : VoltageStage
  current : CurrentStage
  cycle : CycleMeter := {}
  active : ActivePlan := {}
  store : PlanStore := {}
  scale : TimeScale := .realTime
  hour : UInt8 := 12
  board : Board
  deriving DecidableEq, Repr

/-- What a consumer did when it was served. -/
inductive Served where
  | idle
  /-- The consumer handled a sample; the cycle meter may have closed a cycle. -/
  | handled (sample : Sample) (bill : Option CycleBill)
  deriving DecidableEq, Repr

namespace Pipeline

/-- The board of a meter that is not started. With a software timer behind the link, its
clock is that of the settings. -/
def bareBoard (settings : MeterSettings) (soft : Bool) : Board :=
  let timer :=
    if soft then (TickClock.ofHertz settings.clockHertz).toOption.map ({ clock := · })
    else none
  { timer := { soft := timer } }

/-- Starts the voltage stage on the board, then the current stage. -/
def start (settings : MeterSettings) (board : Board) : Except Fault Pipeline :=
  match VoltageStage.start settings board with
  | (.error fault, _) => .error fault
  | (.ok voltage, board) =>
    match CurrentStage.start settings board with
    | (.error fault, _) => .error fault
    | (.ok current, board) => .ok { voltage, current, board }

def note (p : Pipeline) (records : List LogRecord) : Pipeline :=
  { p with board := p.board.note records }

def appendScript (p : Pipeline) (script : List Conversion) : Pipeline :=
  { p with intake := { p.intake with converter := p.intake.converter.append script } }

def interrupt (p : Pipeline) : Except Fault Sample × Pipeline :=
  let handled := p.intake.interrupt p.queues
  (handled.value.result,
    { p with intake := handled.value.intake, queues := handled.value.queues }.note handled.log)

/-- Builds a new intake onto the same converter. -/
def restart (p : Pipeline) : Pipeline := { p with intake := .onto p.intake.converter }

def handleVoltage (p : Pipeline) (raw : Int16) : Pipeline :=
  let (voltage, board) := p.voltage.handle p.board raw
  { p with voltage, board }

def handleCurrent (p : Pipeline) (sample : Sample) : Pipeline :=
  let handled := p.current.handle p.board p.queues.cycle sample
  { p with
    current := handled.stage
    queues := { p.queues with cycle := handled.cycleQueue }
    board := handled.board }

/-- The terms in force: the rate of the hour and the time scale. -/
def terms (p : Pipeline) : BillingTerms where
  rate := p.active.rate p.hour
  scale := p.scale

def handleCycle (p : Pipeline) (sample : Sample) : Option CycleBill × Pipeline :=
  let handled := p.cycle.add p.terms p.board.totals sample
  let board := { p.board with totals := handled.value.totals }.note handled.log
  (handled.value.bill, { p with cycle := handled.value.meter, board })

def handle (p : Pipeline) (consumer : Consumer) (sample : Sample) :
    Option CycleBill × Pipeline :=
  match consumer with
  | .voltage => (none, p.handleVoltage sample.voltage)
  | .current => (none, p.handleCurrent sample)
  | .cycle => p.handleCycle sample

/-- A consumer handles the oldest sample of its queue, if one waits. -/
def serve (p : Pipeline) (consumer : Consumer) : Served × Pipeline :=
  match p.queues.receive? consumer with
  | none => (.idle, p)
  | some (sample, queues) =>
    let (bill, p) := { p with queues }.handle consumer sample
    (.handled sample bill, p)

def serveTimes (p : Pipeline) (consumer : Consumer) : Nat → List Served × Pipeline
  | 0 => ([], p)
  | n + 1 =>
    let (first, p) := p.serve consumer
    let (rest, p) := p.serveTimes consumer n
    (first :: rest, p)

/-- A consumer handles all that waits in its queue. No consumer sends to its own queue, so
one serving for each waiting sample empties it. -/
def drain (p : Pipeline) (consumer : Consumer) : List Served × Pipeline :=
  p.serveTimes consumer (p.queues.get consumer).length

/-- Sends a sample to a consumer from outside, and tells whether its queue took it. -/
def send (p : Pipeline) (consumer : Consumer) (sample : Sample) : Bool × Pipeline :=
  match p.queues.send? consumer sample with
  | none => (false, p)
  | some queues => (true, { p with queues })

/-- Takes the oldest sample out of a queue unhandled. -/
def receive (p : Pipeline) (consumer : Consumer) : Option Sample × Pipeline :=
  match p.queues.receive? consumer with
  | none => (none, p)
  | some (sample, queues) => (some sample, { p with queues })

def settle (p : Pipeline) (answer : Noted PlanAnswer) : Except Fault Plan × Pipeline :=
  (answer.value.result,
    { p with active := answer.value.active, store := answer.value.store }.note answer.log)

def loadPlan (p : Pipeline) : Except Fault Plan × Pipeline := p.settle (p.active.load p.store)

def selectPlan (p : Pipeline) (byte : UInt8) : Except Fault Plan × Pipeline :=
  p.settle (p.active.select p.store byte)

def setScale (p : Pipeline) (scale : Noted TimeScale) : Pipeline :=
  { p with scale := scale.value }.note scale.log

def describe (p : Pipeline) : List String :=
  [p.intake.describe, p.voltage.describe p.board.timer, p.current.describe,
    p.cycle.describe p.hour, p.board.totals.describeShared, p.active.describe,
    p.scale.describe]

end Pipeline

end EnergyMeter
