import EnergyMeter.Pipeline.Basic

/-!
# Rounds

A round is one interrupt, after which each consumer is served once in the order of the data.
Where there is no interrupt, a loop takes the samples itself and waits out the period of a
software timer before each round of servings.
-/
namespace EnergyMeter

structure ServedRound where
  voltage : Served
  current : Served
  cycle : Served
  deriving DecidableEq, Repr

/-- A meter that paces its samples itself, with the delays it asked for so far. -/
structure PacedPipeline where
  pipeline : Pipeline
  /-- The length of each delay in nanoseconds. -/
  delays : Array UInt32 := #[]
  deriving DecidableEq, Repr

namespace Pipeline

def serveEach (p : Pipeline) : ServedRound × Pipeline :=
  let (voltage, p) := p.serve .voltage
  let (current, p) := p.serve .current
  let (cycle, p) := p.serve .cycle
  ({ voltage, current, cycle }, p)

/-- One interrupt, then each consumer. -/
def round (p : Pipeline) : (Except Fault Sample × ServedRound) × Pipeline :=
  let (result, p) := p.interrupt
  let (served, p) := p.serveEach
  ((result, served), p)

end Pipeline

namespace PacedPipeline

/-- Enables or disables the software timer itself; the link records no call. -/
def switch (paced : PacedPipeline) (on : Bool) : PacedPipeline :=
  let p := paced.pipeline
  let soft := p.board.timer.soft.map (·.perform (if on then .enable else .disable))
  let board := { p.board with timer := { p.board.timer with soft } }
  { paced with pipeline := { p with board } }

/-- Takes one sample if the software timer is enabled, then waits out its period. Without a
software timer it neither samples nor waits. -/
def sampleAndWait (paced : PacedPipeline) : Option (Except Fault Sample) × PacedPipeline :=
  match paced.pipeline.board.timer.soft with
  | none => (none, paced)
  | some timer =>
    let delays := paced.delays.push timer.period
    if timer.enabled then
      let (result, pipeline) := paced.pipeline.interrupt
      (some result, { pipeline, delays })
    else (none, { paced with delays })

def report (pipeline : Pipeline) : Option (Except Fault Sample) → Pipeline
  | some (.error fault) => pipeline.note [.sampleSkipped fault]
  | _ => pipeline

/-- One paced sample, then each consumer. A failed sample is reported and skipped. -/
def round (paced : PacedPipeline) : ServedRound × PacedPipeline :=
  let (result, paced) := paced.sampleAndWait
  let (served, pipeline) := (report paced.pipeline result).serveEach
  (served, { paced with pipeline })

def rounds (paced : PacedPipeline) : Nat → List ServedRound × PacedPipeline
  | 0 => ([], paced)
  | n + 1 =>
    let (first, paced) := paced.round
    let (rest, paced) := paced.rounds n
    (first :: rest, paced)

end PacedPipeline

end EnergyMeter
