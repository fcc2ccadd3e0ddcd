import EnergyMeter.Proofs.Events
import EnergyMeter.Proofs.Words

/-!
# What one operation does to the queues

An offer either puts a sample last or loses it. An interrupt that returns a pair offers it to
the queues of both channels, and one that fails leaves them as they were. Serving a consumer
takes the oldest sample of its queue, and only the current consumer offers it further.
-/
namespace EnergyMeter

/-- The consumer that the samples of an input are posted to. -/
def AnalogInput.consumer : AnalogInput → Consumer
  | voltage => .voltage
  | current => .current

namespace SampleQueue

/-- The queue after a sample was offered to it. -/
def afterOffer (queue : SampleQueue) (sample : Sample) : SampleQueue :=
  (queue.send? sample).getD queue

/-- The samples that an offer loses. -/
def loss (queue : SampleQueue) : Nat := if queue.HasRoom then 0 else 1

@[simp] theorem samples_afterOffer (queue : SampleQueue) (sample : Sample) :
    (queue.afterOffer sample).samples =
      queue.samples ++ if queue.HasRoom then [sample] else [] := by
  unfold afterOffer send?
  split <;> simp

end SampleQueue

namespace SampleQueues

@[simp] theorem get_set_self (queues : SampleQueues) (consumer : Consumer) (queue : SampleQueue) :
    (queues.set consumer queue).get consumer = queue := by
  cases consumer <;> rfl

theorem get_set_of_ne (queues : SampleQueues) {consumer other : Consumer} (h : other ≠ consumer)
    (queue : SampleQueue) : (queues.set consumer queue).get other = queues.get other := by
  cases consumer <;> cases other <;> first | rfl | exact absurd rfl h

/-- A receiver takes the first sample of its own queue and leaves the other queues alone. -/
theorem receive?_eq_some {queues next : SampleQueues} {consumer : Consumer} {sample : Sample}
    (h : queues.receive? consumer = some (sample, next)) :
    (queues.get consumer).samples = sample :: (next.get consumer).samples ∧
      ∀ other, other ≠ consumer → next.get other = queues.get other := by
  obtain ⟨⟨first, rest⟩, hr, he⟩ := Option.map_eq_some_iff.mp h
  obtain ⟨rfl, rfl⟩ := Prod.mk.inj he
  constructor
  · rw [get_set_self]
    exact SampleQueue.samples_of_receive? hr
  · intro other hne
    exact get_set_of_ne queues hne rest

end SampleQueues

namespace Intake

@[simp] theorem overruns_read (intake : Intake) (input : AnalogInput) :
    (intake.read input).value.2.overruns = intake.overruns := by
  unfold read
  split <;> rfl

@[simp] theorem offer_value (input : AnalogInput) (sample : Sample) (queue : SampleQueue)
    (overruns : UInt32) :
    (offer input sample queue overruns).value =
      (queue.afterOffer sample, UInt32.ofNatClamp (overruns.toNat + queue.loss)) := by
  unfold offer SampleQueue.afterOffer SampleQueue.loss SampleQueue.send?
  split
  · next hs =>
    split at hs
    · next hr => simp_all
    · cases hs
  · next hs =>
    split at hs
    · cases hs
    · next hr => simp_all

/-- Posting offers the pair to both channels and counts what is lost. -/
theorem post_value (intake : Intake) (queues : SampleQueues) (sample : Sample) :
    (intake.post queues sample).value.2 =
        { queues with
          voltage := queues.voltage.afterOffer sample
          current := queues.current.afterOffer sample } ∧
      (intake.post queues sample).value.1.overruns.toNat =
        min (intake.overruns.toNat + queues.voltage.loss + queues.current.loss) (2 ^ 32 - 1) := by
  constructor
  · simp [post]
  · simp only [post, offer_value, Words.toNat_clamp32]
    omega

/-- An interrupt reads one pair and posts it, or fails and posts nothing. -/
theorem interrupt_value (intake : Intake) (queues : SampleQueues) :
    let done := (intake.interrupt queues).value
    (∃ sample read, read.overruns = intake.overruns ∧ done.result = .ok sample ∧
      (done.intake, done.queues) = (post read queues sample).value) ∨
    (∃ fault, done.result = .error fault ∧ done.intake.overruns = intake.overruns ∧
      done.queues = queues) := by
  intro done
  have hv := overruns_read intake .voltage
  rcases hr : (intake.read .voltage).value with ⟨fault | voltage, read⟩
  · rw [hr] at hv
    refine .inr ⟨fault, ?_⟩
    simp only [done, interrupt, hr, true_and]
    exact ⟨hv, trivial⟩
  · rw [hr] at hv
    have hc := overruns_read read .current
    rcases hr' : (read.read .current).value with ⟨fault | current, last⟩
    · rw [hr'] at hc
      refine .inr ⟨fault, ?_⟩
      simp only [done, interrupt, hr, hr', true_and]
      exact ⟨hc.trans hv, trivial⟩
    · rw [hr'] at hc
      refine .inl ⟨⟨voltage, current⟩, last, hc.trans hv, ?_⟩
      simp only [done, interrupt, hr, hr', and_self]

/-- What an interrupt reads depends on the converter alone. -/
theorem interrupt_converter {intake other : Intake} (h : intake.converter = other.converter)
    (queues more : SampleQueues) :
    (intake.interrupt queues).value.result = (other.interrupt more).value.result ∧
      (intake.interrupt queues).value.intake.converter =
        (other.interrupt more).value.intake.converter := by
  simp only [interrupt, read, h]
  rcases other.converter.convert .voltage with ⟨code | voltage, after⟩
  · exact ⟨rfl, rfl⟩
  · simp only
    rcases after.convert .current with ⟨code | current, last⟩
    · exact ⟨rfl, rfl⟩
    · exact ⟨rfl, rfl⟩

end Intake

namespace Pipeline

/-- An interrupt that returns a pair has offered it to the queues of both channels. -/
theorem interrupt_ok {p : Pipeline} {sample : Sample} (h : p.interrupt.1 = .ok sample) :
    p.interrupt.2.queues =
        { p.queues with
          voltage := p.queues.voltage.afterOffer sample
          current := p.queues.current.afterOffer sample } ∧
      p.interrupt.2.intake.overruns.toNat =
        min (p.intake.overruns.toNat + p.queues.voltage.loss + p.queues.current.loss)
          (2 ^ 32 - 1) := by
  obtain ⟨got, read, ho, hr, hp⟩ | ⟨fault, hr, -, -⟩ := p.intake.interrupt_value p.queues
  · obtain rfl : got = sample := Except.ok.inj (hr.symm.trans h)
    obtain ⟨hq, hn⟩ := read.post_value p.queues got
    rw [← hp] at hq hn
    rw [ho] at hn
    exact ⟨hq, hn⟩
  · cases hr.symm.trans h

/-- An interrupt that fails leaves the queues and the count of overruns as they were. -/
theorem interrupt_error {p : Pipeline} {fault : Fault} (h : p.interrupt.1 = .error fault) :
    p.interrupt.2.queues = p.queues ∧ p.interrupt.2.intake.overruns = p.intake.overruns := by
  obtain ⟨got, read, -, hr, -⟩ | ⟨_, -, ho, hq⟩ := p.intake.interrupt_value p.queues
  · cases hr.symm.trans h
  · exact ⟨hq, ho⟩

@[simp] theorem handleCurrent_queues (p : Pipeline) (sample : Sample) :
    (p.handleCurrent sample).queues =
      { p.queues with cycle := p.queues.cycle.afterOffer sample } := by
  unfold handleCurrent CurrentStage.handle SampleQueue.afterOffer
  cases p.queues.cycle.send? sample <;> rfl

@[simp] theorem handleCurrent_overruns (p : Pipeline) (sample : Sample) :
    (p.handleCurrent sample).current.overruns.toNat =
      min (p.current.overruns.toNat + p.queues.cycle.loss) (2 ^ 32 - 1) := by
  unfold handleCurrent CurrentStage.handle SampleQueue.loss SampleQueue.send?
  by_cases hr : p.queues.cycle.HasRoom
  · have hlt := p.current.overruns.toNat_lt
    simp [hr]
    omega
  · simp [hr]

@[simp] theorem follow_totals (stage : VoltageStage) (board : Board) (moved : Option UInt8) :
    (stage.follow board moved).totals = board.totals := by
  cases moved <;> rfl

/-- The voltage consumer writes three of the totals. -/
theorem handleVoltage_totals (p : Pipeline) (raw : Int16) :
    (p.handleVoltage raw).board.totals =
      { p.board.totals with
        voltage := raw
        voltageRms := (p.handleVoltage raw).voltage.rms.rms
        frequencyOffset := (p.handleVoltage raw).voltage.loop.offset } := by
  simp only [handleVoltage, VoltageStage.handle, Board.publish, Board.note, follow_totals]

/-- The current consumer writes two of the totals. -/
theorem handleCurrent_totals (p : Pipeline) (sample : Sample) :
    (p.handleCurrent sample).board.totals =
      { p.board.totals with
        current := sample.current
        currentRms := (p.handleCurrent sample).current.rms.rms } := by
  unfold handleCurrent CurrentStage.handle
  cases p.queues.cycle.send? sample <;> rfl

@[simp] theorem handleCurrent_timer (p : Pipeline) (sample : Sample) :
    (p.handleCurrent sample).board.timer = p.board.timer := by
  unfold handleCurrent CurrentStage.handle
  cases p.queues.cycle.send? sample <;> rfl

/-- The cycle meter adds its bill to the totals, if a cycle closes. -/
theorem handleCycle_totals (p : Pipeline) (sample : Sample) :
    (p.handleCycle sample).2.board.totals =
      ((p.handleCycle sample).1.map p.board.totals.addBill).getD p.board.totals := by
  simp only [handleCycle, CycleMeter.add, Board.note]
  split <;> rfl

end Pipeline

end EnergyMeter
