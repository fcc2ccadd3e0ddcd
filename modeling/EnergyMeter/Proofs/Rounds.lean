import EnergyMeter.Pipeline.Round
import EnergyMeter.Proofs.Operations

/-!
# Rounds of the meter

A round that starts with nothing waiting takes one pair through the whole meter, or fails and
touches neither queues nor consumers. Either way nothing waits when it ends.
-/
namespace EnergyMeter

/-- A round in which no consumer had anything to do. -/
def ServedRound.idle : ServedRound := ⟨.idle, .idle, .idle⟩

namespace Pipeline

/-- So many rounds, with what each answered. -/
def rounds (p : Pipeline) : Nat → List (Except Fault Sample × ServedRound) × Pipeline
  | 0 => ([], p)
  | n + 1 =>
    let (first, p) := p.round
    let (rest, p) := p.rounds n
    (first :: rest, p)

theorem rounds_snoc (p : Pipeline) (n : Nat) :
    p.rounds (n + 1) = ((p.rounds n).1 ++ [(p.rounds n).2.round.1], (p.rounds n).2.round.2) := by
  induction n generalizing p with
  | zero => rfl
  | succ n ih =>
    have hn := ih p.round.2
    show (p.round.1 :: (p.round.2.rounds (n + 1)).1, (p.round.2.rounds (n + 1)).2) = _
    rw [hn]
    rfl

theorem serve_empty {p : Pipeline} {consumer : Consumer} (h : p.queues.get consumer = {}) :
    p.serve consumer = (.idle, p) := by
  simp only [serve, SampleQueues.receive?, h, SampleQueue.receive?, Option.map_none]

theorem serve_single {p : Pipeline} {consumer : Consumer} {sample : Sample}
    (h : p.queues.get consumer = ⟨[sample]⟩) :
    p.serve consumer =
      (({ p with queues := p.queues.set consumer {} }.handle consumer sample).map
        (Served.handled sample) id) := by
  simp only [serve, SampleQueues.receive?, h, SampleQueue.receive?, Option.map_some]
  rfl

/-- Each consumer handles a sample, which passes through the queue of the cycle meter. -/
def handleEach (p : Pipeline) (sample : Sample) : Option CycleBill × Pipeline :=
  { (p.handleVoltage sample.voltage).handleCurrent sample with queues := {} }.handleCycle sample

/-- A round that fails does nothing but read the converter. -/
theorem round_error {p : Pipeline} (hq : p.queues = {}) {fault : Fault}
    (h : p.interrupt.1 = .error fault) :
    p.round = ((.error fault, .idle), p.interrupt.2) := by
  have hempty : ∀ consumer, p.interrupt.2.queues.get consumer = {} := by
    intro consumer
    rw [(interrupt_error h).1, hq]
    cases consumer <;> rfl
  have hround : p.round = ((p.interrupt.1, p.interrupt.2.serveEach.1), p.interrupt.2.serveEach.2) :=
    rfl
  rw [hround, h]
  simp only [serveEach, serve_empty (hempty _)]
  rfl

/-- A round that reads a pair has each consumer handle it. -/
theorem round_ok {p : Pipeline} (hq : p.queues = {}) {sample : Sample}
    (h : p.interrupt.1 = .ok sample) :
    let done := { p.interrupt.2 with queues := {} }.handleEach sample
    p.round = ((.ok sample, ⟨.handled sample none, .handled sample none,
      .handled sample done.1⟩), done.2) := by
  have hread : p.interrupt.2.queues = ⟨⟨[sample]⟩, ⟨[sample]⟩, {}⟩ := by
    rw [(interrupt_ok h).1, hq]
    rfl
  have hvoltage : p.interrupt.2.serve .voltage = (.handled sample none,
      { p.interrupt.2 with queues := ⟨{}, ⟨[sample]⟩, {}⟩ }.handleVoltage sample.voltage) := by
    rw [serve_single (congrArg (·.get .voltage) hread), hread]
    rfl
  have hcurrent : ({ p.interrupt.2 with
        queues := ⟨{}, ⟨[sample]⟩, {}⟩ }.handleVoltage sample.voltage).serve .current =
      (.handled sample none, ({ p.interrupt.2 with
        queues := {} }.handleVoltage sample.voltage).handleCurrent sample) :=
    serve_single rfl
  have hqueues := ({ p.interrupt.2 with
    queues := {} }.handleVoltage sample.voltage).handleCurrent_queues sample
  have hcycle := serve_single (congrArg (·.get .cycle) hqueues)
  rw [hqueues] at hcycle
  have hround : p.round = ((p.interrupt.1, p.interrupt.2.serveEach.1), p.interrupt.2.serveEach.2) :=
    rfl
  rw [hround, h]
  simp only [serveEach, hvoltage, hcurrent, hcycle]
  rfl

end Pipeline

end EnergyMeter
