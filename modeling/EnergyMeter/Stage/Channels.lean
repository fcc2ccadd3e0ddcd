import EnergyMeter.Signal.FrequencyLoop
import EnergyMeter.Signal.RunningRms
import EnergyMeter.Stage.Board

/-!
# The stages of the two channels

The consumer of voltage samples and the consumer of current samples. The frequency loop sees a
voltage first, and a move of the offset retunes the sampling timer before the RMS is refreshed.
What is published is the offset that the timer runs at. The current stage passes each sample on
to the cycle meter after its own refresh, once; a full queue there loses the sample, which counts
as an overrun.
-/
namespace EnergyMeter

structure VoltageStage where
  rms : RunningRms DesignPoint.cycleLength
  loop : FrequencyLoop
  clock : TickClock
  deriving DecidableEq, Repr

namespace VoltageStage

/-- Checks the settings and starts the sampling timer at the initial offset. With refused
settings the board stays as it was. -/
def start (settings : MeterSettings) (board : Board) : Except Fault VoltageStage × Board :=
  match settings.check with
  | .error fault => (.error fault, board)
  | .ok () =>
    match TickClock.ofHertz settings.clockHertz with
    | .error fault => (.error fault, board)
    | .ok clock =>
      let loop :=
        FrequencyLoop.start (UInt8.ofNat DesignPoint.cycleLength) settings.startOffset
      let board := board.retune clock loop.period
      let board := board.note [.samplingStarted loop.period loop.offset]
      let board := board.publish ({ · with frequencyOffset := loop.offset })
      (.ok { rms := .ofRatio settings.voltageRatio, loop, clock }, board)

def follow (stage : VoltageStage) (board : Board) (moved : Option UInt8) : Board :=
  match moved with
  | none => board
  | some _ => board.retune stage.clock stage.loop.period

def handle (stage : VoltageStage) (board : Board) (raw : Int16) : VoltageStage × Board :=
  let seen := stage.loop.observe raw
  let tuned := { stage with loop := seen.value.1 }
  let board := tuned.follow (board.note seen.log) seen.value.2
  let refreshed := stage.rms.push raw
  let stage := { tuned with rms := refreshed.value }
  (stage,
    (board.note refreshed.log).publish
      ({ · with
        voltage := raw
        voltageRms := stage.rms.rms
        frequencyOffset := stage.loop.offset }))

def describe (stage : VoltageStage) (timer : TimerLink) : String :=
  Text.openRecord "VoltageChannel"
    [Text.field "rms" stage.rms.describe, Text.field "tracker" stage.loop.describe,
      Text.field "timer" timer.describe, Text.field "timer_config" stage.clock.describe]

end VoltageStage

structure CurrentStage where
  rms : RunningRms DesignPoint.cycleLength
  overruns : UInt32 := 0
  deriving DecidableEq, Repr

namespace CurrentStage

/-- Checks the settings. The board is neither read nor changed. -/
def start (settings : MeterSettings) (board : Board) : Except Fault CurrentStage × Board :=
  match settings.check with
  | .error fault => (.error fault, board)
  | .ok () => (.ok { rms := .ofRatio settings.currentRatio }, board)

/-- What became of one sample: the stage, the queue of the cycle meter, and the board. -/
structure Handled where
  stage : CurrentStage
  cycleQueue : SampleQueue
  board : Board
  deriving DecidableEq, Repr

def handle (stage : CurrentStage) (board : Board) (cycleQueue : SampleQueue)
    (sample : Sample) : Handled :=
  let refreshed := stage.rms.push sample.current
  let stage := { stage with rms := refreshed.value }
  let board :=
    (board.note refreshed.log).publish
      ({ · with current := sample.current, currentRms := stage.rms.rms })
  match cycleQueue.send? sample with
  | some cycleQueue => { stage, cycleQueue, board }
  | none =>
    { stage := { stage with overruns := UInt32.ofNatClamp (stage.overruns.toNat + 1) }
      cycleQueue
      board := board.note [.cycleSampleDropped] }

def describe (stage : CurrentStage) : String :=
  Text.openRecord "CurrentChannel"
    [Text.field "rms" stage.rms.describe,
      Text.field "overruns" (toString stage.overruns.toNat)]

end CurrentStage

end EnergyMeter
