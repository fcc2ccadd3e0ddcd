import EnergyMeter.Timing.NominalPeriod

/-!
# Samples and their queues

A raw sample is a signed word; the converter delivers one for each analog input. The
squares that the running values are made of are taken in the working format, twenty
times the raw magnitude, and scaled back by sixteen bits.

Each consumer of samples has a bounded queue. A sender never waits: a full queue refuses
the sample. A receiver takes the oldest. The queue stands for the bounded channel of a library
that the meter is built with. Of that channel it is assumed that it holds as many samples as it
was made for and no more, that an offer to a full channel leaves it as it is and says so, that
samples come out in the order in which they went in, each once, and that nothing else adds,
drops or reorders them.
-/
namespace EnergyMeter

/-- The voltage and the current of one instant, as raw words. -/
structure Sample where
  voltage : Int16
  current : Int16
  deriving DecidableEq, Repr, Inhabited

/-- The distance of a raw word from zero. It fits also for the most negative word. -/
def magnitude (raw : Int16) : UInt16 := UInt16.ofNat raw.toInt.natAbs

/-- Multiplier from the raw base to the working format. -/
def rawScale : Nat := 20

def scaledSquare (raw : Int16) : UInt32 :=
  let scaled := rawScale * (magnitude raw).toNat
  UInt32.ofNat ((scaled * scaled) >>> 16)

/-- A bounded queue of samples, oldest first. -/
structure SampleQueue where
  samples : List Sample := []
  deriving DecidableEq, Repr

namespace SampleQueue

def length (queue : SampleQueue) : Nat := queue.samples.length

/-- The queue takes another sample. -/
def HasRoom (queue : SampleQueue) : Prop := queue.length < DesignPoint.queueDepth

instance (queue : SampleQueue) : Decidable queue.HasRoom := inferInstanceAs (Decidable (_ < _))

/-- The queue with a sample at its end, none if it is full. -/
def send? (queue : SampleQueue) (sample : Sample) : Option SampleQueue :=
  if queue.HasRoom then some ⟨queue.samples ++ [sample]⟩ else none

/-- The oldest sample and the queue without it, none if it is empty. -/
def receive? (queue : SampleQueue) : Option (Sample × SampleQueue) :=
  match queue.samples with
  | [] => none
  | sample :: rest => some (sample, ⟨rest⟩)

theorem samples_of_receive? {queue next : SampleQueue} {sample : Sample}
    (h : queue.receive? = some (sample, next)) : queue.samples = sample :: next.samples := by
  unfold receive? at h
  split at h
  · cases h
  · next first rest he =>
    obtain ⟨rfl, rfl⟩ := Prod.mk.inj (Option.some.inj h)
    exact he

end SampleQueue

inductive Consumer where
  | voltage
  | current
  | cycle
  deriving DecidableEq, Repr

structure SampleQueues where
  voltage : SampleQueue := {}
  current : SampleQueue := {}
  cycle : SampleQueue := {}
  deriving DecidableEq, Repr

namespace SampleQueues

def get (queues : SampleQueues) : Consumer → SampleQueue
  | .voltage => queues.voltage
  | .current => queues.current
  | .cycle => queues.cycle

def set (queues : SampleQueues) (consumer : Consumer) (queue : SampleQueue) : SampleQueues :=
  match consumer with
  | .voltage => { queues with voltage := queue }
  | .current => { queues with current := queue }
  | .cycle => { queues with cycle := queue }

/-- Sends to one consumer, none if its queue is full. -/
def send? (queues : SampleQueues) (consumer : Consumer) (sample : Sample) : Option SampleQueues :=
  ((queues.get consumer).send? sample).map (queues.set consumer)

/-- Receives for one consumer, none if its queue is empty. -/
def receive? (queues : SampleQueues) (consumer : Consumer) : Option (Sample × SampleQueues) :=
  (queues.get consumer).receive?.map fun (sample, rest) => (sample, queues.set consumer rest)

end SampleQueues

end EnergyMeter
