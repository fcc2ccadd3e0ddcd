import EnergyMeter.Pipeline.Basic

/-!
# Schedules

A schedule is a list of single steps: interrupts, servings, samples handed to a consumer,
and changes from outside. Running it gives the outcome of every step and the meter it
leaves, so a statement about interleavings is a statement about lists.
-/
namespace EnergyMeter

inductive Step where
  | appendScript (script : List Conversion)
  | interrupt
  | restart
  | serve (consumer : Consumer)
  | drain (consumer : Consumer)
  /-- A consumer is handed a sample past its queue. -/
  | hand (consumer : Consumer) (sample : Sample)
  | send (consumer : Consumer) (sample : Sample)
  | receive (consumer : Consumer)
  | setHour (hour : UInt8)
  | setScale (value : UInt32)
  | setTestMode (on : Bool)
  | loadPlan
  | selectPlan (byte : UInt8)
  | changeStore (change : StoreChange)
  deriving DecidableEq, Repr

inductive Outcome where
  | done
  | sampled (result : Except Fault Sample)
  /-- The items of the script that are left to a new intake. -/
  | restarted (left : Nat)
  | served (served : Served)
  | drained (served : List Served)
  | handed (bill : Option CycleBill)
  | sent (taken : Bool)
  | received (sample : Option Sample)
  | planned (result : Except Fault Plan)

namespace Pipeline

def step (p : Pipeline) : Step → Outcome × Pipeline
  | .appendScript script => (.done, p.appendScript script)
  | .interrupt => p.interrupt.map .sampled id
  | .restart => (.restarted p.intake.converter.script.length, p.restart)
  | .serve consumer => (p.serve consumer).map .served id
  | .drain consumer => (p.drain consumer).map .drained id
  | .hand consumer sample => (p.handle consumer sample).map .handed id
  | .send consumer sample => (p.send consumer sample).map .sent id
  | .receive consumer => (p.receive consumer).map .received id
  | .setHour hour => (.done, { p with hour })
  | .setScale value => (.done, p.setScale (TimeScale.set value))
  | .setTestMode on => (.done, p.setScale (TimeScale.setTestMode on))
  | .loadPlan => p.loadPlan.map .planned id
  | .selectPlan byte => (p.selectPlan byte).map .planned id
  | .changeStore change => (.done, { p with store := p.store.change change })

def run (p : Pipeline) : List Step → List Outcome × Pipeline
  | [] => ([], p)
  | first :: rest =>
    let (outcome, p) := p.step first
    let (outcomes, p) := p.run rest
    (outcome :: outcomes, p)

end Pipeline

end EnergyMeter
