import EnergyMeter.Proofs.Rounds

/-!
# What an operation adds to the log

No operation reads the log: whatever was recorded before, it does the same and adds the same
records. What an operation can record is known by topic: an interrupt records the conversion
that failed or the queues that were full, a consumer the few topics of its own work.
-/
namespace EnergyMeter

/-- The record of a conversion that failed. -/
def LogRecord.isFailedRead : LogRecord → Bool
  | conversionFailed .. => true
  | _ => false

/-- A move of the offset and the reload that it causes. -/
def VoltageStage.moveRecords (stage : VoltageStage) (raw : Int16) : List LogRecord :=
  let seen := stage.loop.observe raw
  let period := seen.value.1.period
  seen.log ++
    if seen.value.2.isSome then [.timerReloaded period (stage.clock.countdown period)] else []

/-- A move comes before the window of the sample. -/
def VoltageStage.records (stage : VoltageStage) (raw : Int16) : List LogRecord :=
  stage.moveRecords raw ++ (stage.rms.push raw).log

/-- The sample is passed on after its window was recorded. -/
def CurrentStage.records (stage : CurrentStage) (cycleQueue : SampleQueue) (sample : Sample) :
    List LogRecord :=
  (stage.rms.push sample.current).log ++
    if cycleQueue.HasRoom then [] else [.cycleSampleDropped]

namespace Pipeline

def interruptRecords (p : Pipeline) : List LogRecord := (p.intake.interrupt p.queues).log

def handleRecords (p : Pipeline) (consumer : Consumer) (sample : Sample) : List LogRecord :=
  match consumer with
  | .voltage => p.voltage.records sample.voltage
  | .current => p.current.records p.queues.cycle sample
  | .cycle => (p.cycle.add p.terms p.board.totals sample).log

def serveRecords (p : Pipeline) (consumer : Consumer) : List LogRecord :=
  match p.queues.receive? consumer with
  | none => []
  | some (sample, queues) => { p with queues }.handleRecords consumer sample

/-- The records of one serving of each consumer. -/
def serveEachRecords (p : Pipeline) : List LogRecord :=
  p.serveRecords .voltage ++ (p.serve .voltage).2.serveRecords .current ++
    ((p.serve .voltage).2.serve .current).2.serveRecords .cycle

def roundRecords (p : Pipeline) : List LogRecord :=
  p.interruptRecords ++ p.interrupt.2.serveEachRecords

def roundsRecords (p : Pipeline) : Nat → List LogRecord
  | 0 => []
  | n + 1 => p.roundRecords ++ p.round.2.roundsRecords n

/-- The meter with another log. -/
def withLog (p : Pipeline) (log : Array LogRecord) : Pipeline :=
  { p with board := { p.board with log } }

end Pipeline

@[simp] theorem appendList_appendList {α : Type} (log : Array α) (records more : List α) :
    log ++ records ++ more = log ++ (records ++ more) := by
  apply Array.toList_inj.mp
  simp only [Array.toList_appendList, List.append_assoc]

namespace Pipeline

variable (p : Pipeline) (log : Array LogRecord)

@[simp] theorem note_withLog (records : List LogRecord) :
    (p.withLog log).note records = p.withLog (log ++ records) := rfl

@[simp] theorem interrupt_withLog :
    (p.withLog log).interrupt =
      (p.interrupt.1, p.interrupt.2.withLog (log ++ p.interruptRecords)) := rfl

@[simp] theorem handleVoltage_withLog (raw : Int16) :
    (p.withLog log).handleVoltage raw =
      (p.handleVoltage raw).withLog (log ++ p.voltage.records raw) := by
  cases hm : (p.voltage.loop.observe raw).value.2 with
  | none =>
    simp [handleVoltage, VoltageStage.handle, VoltageStage.records, VoltageStage.moveRecords,
      VoltageStage.follow, withLog, Board.note, Board.publish, hm]
  | some offset =>
    simp only [handleVoltage, VoltageStage.handle, VoltageStage.records, VoltageStage.moveRecords,
      VoltageStage.follow, withLog, Board.note, Board.publish, Board.retune, TimerLink.retune, hm,
      Option.isSome_some, if_true, appendList_appendList, List.append_assoc]

@[simp] theorem handleCurrent_withLog (sample : Sample) :
    (p.withLog log).handleCurrent sample =
      (p.handleCurrent sample).withLog (log ++ p.current.records p.queues.cycle sample) := by
  by_cases hr : p.queues.cycle.HasRoom
  · simp [handleCurrent, CurrentStage.handle, CurrentStage.records, SampleQueue.send?, withLog,
      Board.note, Board.publish, hr]
  · simp only [handleCurrent, CurrentStage.handle, CurrentStage.records, SampleQueue.send?,
      withLog, Board.note, Board.publish, hr, if_false, appendList_appendList]

@[simp] theorem handle_withLog (consumer : Consumer) (sample : Sample) :
    (p.withLog log).handle consumer sample = ((p.handle consumer sample).1,
      (p.handle consumer sample).2.withLog (log ++ p.handleRecords consumer sample)) := by
  cases consumer with
  | voltage => exact congrArg (none, ·) (p.handleVoltage_withLog log sample.voltage)
  | current => exact congrArg (none, ·) (p.handleCurrent_withLog log sample)
  | cycle => rfl

@[simp] theorem serve_withLog (consumer : Consumer) :
    (p.withLog log).serve consumer = ((p.serve consumer).1,
      (p.serve consumer).2.withLog (log ++ p.serveRecords consumer)) := by
  cases hr : p.queues.receive? consumer with
  | none =>
    have hw : (p.withLog log).queues.receive? consumer = none := hr
    simp [serve, serveRecords, hr, hw]
  | some taken =>
    obtain ⟨sample, queues⟩ := taken
    have hw : (p.withLog log).queues.receive? consumer = some (sample, queues) := hr
    have hq : ({ p.withLog log with queues } : Pipeline) = { p with queues }.withLog log := rfl
    simp [serve, serveRecords, hr, hw, hq]

@[simp] theorem serveEach_withLog :
    (p.withLog log).serveEach =
      (p.serveEach.1, p.serveEach.2.withLog (log ++ p.serveEachRecords)) := by
  simp [serveEach, serveEachRecords]

@[simp] theorem round_withLog :
    (p.withLog log).round = (p.round.1, p.round.2.withLog (log ++ p.roundRecords)) := by
  simp [round, roundRecords]

@[simp] theorem rounds_withLog (n : Nat) :
    (p.withLog log).rounds n =
      ((p.rounds n).1, (p.rounds n).2.withLog (log ++ p.roundsRecords n)) := by
  induction n generalizing p log with
  | zero => simp [rounds, roundsRecords]
  | succ n ih => simp [rounds, roundsRecords, ih]

/-- The records of so many rounds come after what was recorded before. -/
theorem log_rounds (n : Nat) : (p.rounds n).2.board.log = p.board.log ++ p.roundsRecords n :=
  congrArg (·.2.board.log) (p.rounds_withLog p.board.log n)

end Pipeline

inductive LogTopic where
  | conversion
  | channelQueue
  | cycleQueue
  | window
  | offset
  | timer
  | billing
  /-- The plan, its store or the time scale. -/
  | setting
  | pacing
  deriving DecidableEq, Repr

def LogRecord.topic : LogRecord → LogTopic
  | conversionFailed .. => .conversion
  | pairDropped _ => .channelQueue
  | cycleSampleDropped => .cycleQueue
  | windowFull _ => .window
  | offsetMoved .. => .offset
  | timerReloaded .. | samplingStarted .. => .timer
  | noPlan => .billing
  | planLoaded _ | planSelected _ | storedByteInvalid _ => .setting
  | storeReadFailed _ | storeWriteFailed _ | timeScaleSet _ => .setting
  | sampleSkipped _ => .pacing

/-- Every record is about one of these topics. -/
def About (topics : List LogTopic) (records : List LogRecord) : Prop :=
  ∀ record ∈ records, record.topic ∈ topics

section

variable {topics : List LogTopic} {records : List LogRecord}

@[simp] theorem about_nil : About topics [] := by
  intro record hm
  cases hm

theorem about_singleton {record : LogRecord} (h : record.topic ∈ topics) :
    About topics [record] := by
  intro other hm
  rw [List.mem_singleton.mp hm]
  exact h

theorem About.append {more : List LogRecord} (h : About topics records)
    (hmore : About topics more) : About topics (records ++ more) := by
  intro record hm
  rcases List.mem_append.mp hm with hm | hm
  · exact h record hm
  · exact hmore record hm

theorem About.mono {wider : List LogTopic} (h : About topics records) (hsub : topics ⊆ wider) :
    About wider records := fun record hm => hsub (h record hm)

/-- How many records are about a topic. -/
def countAbout (topic : LogTopic) (records : List LogRecord) : Nat :=
  records.countP (·.topic = topic)

@[simp] theorem countAbout_append (topic : LogTopic) (more : List LogRecord) :
    countAbout topic (records ++ more) = countAbout topic records + countAbout topic more :=
  List.countP_append

/-- None of them is about anything else. -/
theorem About.filter_eq_nil (h : About topics records) {topic : LogTopic} (ht : topic ∉ topics) :
    records.filter (·.topic = topic) = [] := by
  rw [List.filter_eq_nil_iff]
  intro record hm
  rw [decide_eq_true_iff]
  rintro rfl
  exact ht (h record hm)

theorem About.filter_eq_self {topic : LogTopic} (h : About [topic] records) :
    records.filter (·.topic = topic) = records := by
  rw [List.filter_eq_self]
  intro record hm
  exact decide_eq_true (List.mem_singleton.mp (h record hm))

theorem About.countAbout_eq (h : About topics records) {topic : LogTopic} (ht : topic ∉ topics) :
    countAbout topic records = 0 := by
  rw [countAbout, List.countP_eq_length_filter, h.filter_eq_nil ht, List.length_nil]

end

/-- The topics of what a consumer records. -/
def Consumer.topics : Consumer → List LogTopic
  | .voltage => [.offset, .timer, .window]
  | .current => [.window, .cycleQueue]
  | .cycle => [.billing]

theorem FrequencyLoop.about_observe (loop : FrequencyLoop) (raw : Int16) :
    About [.offset] (loop.observe raw).log := by
  unfold observe
  cases loop.phase <;> cases crosses loop.previous raw <;> cases loop.moved? <;>
    simp [About, LogRecord.topic]

theorem RunningRms.about_push {capacity : Nat} (r : RunningRms capacity) (raw : Int16) :
    About [.window] (r.push raw).log := by
  simp only [push]
  split
  · exact about_nil
  · exact about_singleton List.mem_cons_self
  · exact about_nil

theorem CycleMeter.about_add (meter : CycleMeter) (terms : BillingTerms) (totals : Totals)
    (sample : Sample) : About [.billing] (meter.add terms totals sample).log := by
  simp only [add]
  split
  · exact about_nil
  · split
    · exact about_singleton List.mem_cons_self
    · exact about_nil

theorem VoltageStage.about_moveRecords (stage : VoltageStage) (raw : Int16) :
    About [.offset, .timer] (stage.moveRecords raw) := by
  apply ((stage.loop.about_observe raw).mono (by decide)).append
  split
  · exact about_singleton (by simp [LogRecord.topic])
  · exact about_nil

theorem VoltageStage.about_records (stage : VoltageStage) (raw : Int16) :
    About [.offset, .timer, .window] (stage.records raw) :=
  ((stage.about_moveRecords raw).mono (by decide)).append
    ((stage.rms.about_push raw).mono (by decide))

theorem CurrentStage.about_records (stage : CurrentStage) (cycleQueue : SampleQueue)
    (sample : Sample) : About [.window, .cycleQueue] (stage.records cycleQueue sample) := by
  apply ((stage.rms.about_push sample.current).mono (by decide)).append
  split
  · exact about_nil
  · exact about_singleton (by decide)

namespace Pipeline

theorem about_handleRecords (p : Pipeline) (consumer : Consumer) (sample : Sample) :
    About consumer.topics (p.handleRecords consumer sample) := by
  cases consumer with
  | voltage => exact p.voltage.about_records sample.voltage
  | current => exact p.current.about_records p.queues.cycle sample
  | cycle => exact p.cycle.about_add p.terms p.board.totals sample

theorem about_serveRecords (p : Pipeline) (consumer : Consumer) :
    About consumer.topics (p.serveRecords consumer) := by
  unfold serveRecords
  split
  · exact about_nil
  · next sample queues _ => exact about_handleRecords _ consumer sample

end Pipeline

/-- The records of a pair that both channels are offered. -/
def SampleQueues.dropRecords (queues : SampleQueues) : List LogRecord :=
  (if queues.voltage.HasRoom then [] else [.pairDropped .voltage]) ++
    if queues.current.HasRoom then [] else [.pairDropped .current]

theorem SampleQueues.about_dropRecords (queues : SampleQueues) :
    About [.channelQueue] queues.dropRecords := by
  apply About.append
  · split
    · exact about_nil
    · exact about_singleton List.mem_cons_self
  · split
    · exact about_nil
    · exact about_singleton List.mem_cons_self

namespace Intake

theorem log_offer (input : AnalogInput) (sample : Sample) (queue : SampleQueue)
    (overruns : UInt32) : (offer input sample queue overruns).log =
      if queue.HasRoom then [] else [.pairDropped input] := by
  unfold offer SampleQueue.send?
  by_cases hr : queue.HasRoom
  · simp only [hr, if_true]
  · simp only [hr, if_false]

theorem log_post (intake : Intake) (queues : SampleQueues) (sample : Sample) :
    (intake.post queues sample).log = queues.dropRecords := by
  simp only [post, log_offer, SampleQueues.dropRecords]

/-- A read records its failure and nothing else. -/
theorem log_read (intake : Intake) (input : AnalogInput) :
    (∃ raw, (intake.read input).value.1 = .ok raw ∧ (intake.read input).log = []) ∨
      ∃ code, (intake.read input).value.1 = .error (.conversion input) ∧
        (intake.read input).log = [.conversionFailed input code] := by
  unfold read
  split
  · exact .inl ⟨_, rfl, rfl⟩
  · exact .inr ⟨_, rfl, rfl⟩

end Intake

/-- An interrupt that fails leaves one record, of the conversion that failed; another one records
the queues that were full. -/
theorem Pipeline.interruptRecords_cases (p : Pipeline) :
    (∃ sample, p.interrupt.1 = .ok sample ∧ p.interruptRecords = p.queues.dropRecords) ∨
    ∃ input code, p.interrupt.1 = .error (.conversion input) ∧
      p.interruptRecords = [.conversionFailed input code] := by
  have hinterrupt : p.interrupt.1 = (p.intake.interrupt p.queues).value.result := rfl
  rw [hinterrupt, interruptRecords, Intake.interrupt]
  obtain ⟨voltage, hv, hvlog⟩ | ⟨code, hv, hvlog⟩ := p.intake.log_read .voltage
  · rcases hfirst : (p.intake.read .voltage).value with ⟨result, after⟩
    obtain rfl : result = .ok voltage := by rw [hfirst] at hv; exact hv
    obtain ⟨current, hc, hclog⟩ | ⟨code, hc, hclog⟩ := after.log_read .current
    · rcases hsecond : (after.read .current).value with ⟨result, last⟩
      obtain rfl : result = .ok current := by rw [hsecond] at hc; exact hc
      simp only [hsecond, hvlog, hclog, List.nil_append]
      exact .inl ⟨_, rfl, last.log_post p.queues _⟩
    · rcases hsecond : (after.read .current).value with ⟨result, last⟩
      obtain rfl : result = .error (.conversion .current) := by rw [hsecond] at hc; exact hc
      simp only [hsecond, hvlog, hclog, List.nil_append]
      exact .inr ⟨_, code, rfl, rfl⟩
  · rcases hfirst : (p.intake.read .voltage).value with ⟨result, after⟩
    obtain rfl : result = .error (.conversion .voltage) := by rw [hfirst] at hv; exact hv
    simp only [hvlog]
    exact .inr ⟨_, code, rfl, rfl⟩

theorem Pipeline.about_interruptRecords (p : Pipeline) :
    About [.conversion, .channelQueue] p.interruptRecords := by
  obtain ⟨sample, -, hlog⟩ | ⟨input, code, -, hlog⟩ := p.interruptRecords_cases
  · rw [hlog]
    exact p.queues.about_dropRecords.mono (by decide)
  · rw [hlog]
    exact about_singleton List.mem_cons_self

/-- Records among which no conversion failed. -/
def NoFailedRead (records : List LogRecord) : Prop :=
  ∀ record ∈ records, record.isFailedRead = false

theorem About.noFailedRead {topics : List LogTopic} {records : List LogRecord}
    (h : About topics records) (ht : LogTopic.conversion ∉ topics) : NoFailedRead records := by
  intro record hm
  cases record with
  | conversionFailed => exact absurd (h _ hm) ht
  | _ => rfl

theorem NoFailedRead.countP {records : List LogRecord} (h : NoFailedRead records) :
    records.countP LogRecord.isFailedRead = 0 := by
  rw [List.countP_eq_zero]
  intro record hm
  rw [h record hm]
  exact Bool.false_ne_true

theorem Pipeline.noFailedRead_serveEach (p : Pipeline) : NoFailedRead p.serveEachRecords := by
  have hall : ∀ consumer : Consumer, consumer.topics ⊆
      [.offset, .timer, .window, .cycleQueue, .billing] := by
    intro consumer
    cases consumer <;> decide
  have hserved := fun (q : Pipeline) consumer =>
    (q.about_serveRecords consumer).mono (hall consumer)
  exact (((hserved _ .voltage).append (hserved _ .current)).append
    (hserved _ .cycle)).noFailedRead (by decide)

/-- A round that answered without a pair. -/
def readFailed (answer : Except Fault Sample × ServedRound) : Bool := answer.1.toOption.isNone

namespace Pipeline

/-- The log has one record of a failed conversion for each round that failed. -/
theorem countP_roundRecords (p : Pipeline) :
    p.roundRecords.countP LogRecord.isFailedRead = [p.round.1].countP readFailed := by
  have hserved := p.interrupt.2.noFailedRead_serveEach.countP
  have hround : p.round.1.1 = p.interrupt.1 := rfl
  rw [roundRecords, List.countP_append, hserved, Nat.add_zero, List.countP_singleton, readFailed,
    hround]
  obtain ⟨sample, hr, hlog⟩ | ⟨input, code, hr, hlog⟩ := p.interruptRecords_cases
  · have hno := p.queues.about_dropRecords.noFailedRead (by decide)
    rw [hlog, hno.countP, hr]
    rfl
  · rw [hlog, hr]
    rfl

theorem countP_roundsRecords (p : Pipeline) (n : Nat) :
    (p.roundsRecords n).countP LogRecord.isFailedRead = (p.rounds n).1.countP readFailed := by
  induction n generalizing p with
  | zero => rfl
  | succ n ih =>
    show _ = ([p.round.1] ++ (p.round.2.rounds n).1).countP readFailed
    rw [roundsRecords, List.countP_append, List.countP_append, countP_roundRecords, ih]

end Pipeline

end EnergyMeter
