import EnergyMeter.Proofs.LogRecords
import EnergyMeter.Proofs.TimerInStep

/-!
# The paced loop keeps to the rounds of the interrupt

A loop that takes its samples itself and waits out the period of the software timer does what
the same number of interrupt rounds do. A move of the offset stops the timer that gates the
loop, but never leaves it stopped, so no sample is missed, and each wait has the period that the
rounds before it left. Only the log tells the two apart.
-/
namespace EnergyMeter

open Pipeline (softTimed)

/-- A software timer stands behind the link and is enabled. -/
def TimerLink.Running (link : TimerLink) : Prop :=
  ∃ timer, link.soft = some timer ∧ timer.enabled = true

namespace Pipeline

/-- The voltage consumer leaves a running timer running, reloaded or not. -/
theorem running_handleVoltage {p : Pipeline} (h : p.board.timer.Running) (raw : Int16) :
    (p.handleVoltage raw).board.timer.Running := by
  obtain ⟨timer, hs, he⟩ := h
  rw [handleVoltage_timer]
  cases hm : (p.voltage.loop.observe raw).value.2 with
  | none => exact ⟨timer, hs, he⟩
  | some offset =>
    -- The reload disables the timer first, but its last call enables it again.
    have hlast : [offset].getLast? = some offset := rfl
    refine ⟨_, ?_, congrArg SoftTimer.enabled (timer.foldl_reloads p.voltage.clock hlast)⟩
    rw [TimerLink.soft_foldl, hs]
    rfl

theorem running_serve {p : Pipeline} (h : p.board.timer.Running) (consumer : Consumer) :
    (p.serve consumer).2.board.timer.Running := by
  unfold serve
  split
  · exact h
  · next sample queues _ =>
    have hnext : ({ p with queues } : Pipeline).board.timer.Running := h
    cases consumer with
    | voltage => exact running_handleVoltage hnext sample.voltage
    | current =>
      show (handleCurrent _ sample).board.timer.Running
      rw [handleCurrent_timer]
      exact hnext
    | cycle => exact hnext

theorem running_round {p : Pipeline} (h : p.board.timer.Running) :
    p.round.2.board.timer.Running := by
  have hread : p.interrupt.2.board.timer.Running := h
  exact running_serve (running_serve (running_serve hread .voltage) .current) .cycle

end Pipeline

/-- The records of a meter that also reports every round that went without a sample. -/
def withSkips (records : List LogRecord) : List LogRecord :=
  records.flatMap fun record =>
    match record with
    | .conversionFailed input code =>
      [.conversionFailed input code, .sampleSkipped (.conversion input)]
    | other => [other]

@[simp] theorem withSkips_append (records more : List LogRecord) :
    withSkips (records ++ more) = withSkips records ++ withSkips more :=
  List.flatMap_append

theorem withSkips_of_noFailedRead {records : List LogRecord} (h : NoFailedRead records) :
    withSkips records = records := by
  induction records with
  | nil => rfl
  | cons record rest ih =>
    have hrest := ih fun other hm => h other (List.mem_cons_of_mem record hm)
    have hrecord := h record List.mem_cons_self
    show withSkips ([record] ++ rest) = _
    rw [withSkips_append, hrest]
    cases record with
    | conversionFailed => cases hrecord
    | _ => rfl

namespace Pipeline

variable (p : Pipeline) (log : Array LogRecord)

/-- What the loop reports of an interrupt. -/
@[simp] theorem report_withLog :
    PacedPipeline.report (p.interrupt.2.withLog (log ++ p.interruptRecords)) (some p.interrupt.1) =
      p.interrupt.2.withLog (log ++ withSkips p.interruptRecords) := by
  obtain ⟨sample, hr, hlog⟩ | ⟨input, code, hr, hlog⟩ := p.interruptRecords_cases
  · have hno := p.queues.about_dropRecords.noFailedRead (by decide)
    rw [hr, hlog, withSkips_of_noFailedRead hno]
    rfl
  · rw [hr, hlog]
    show (p.interrupt.2.withLog _).note [.sampleSkipped (.conversion input)] = _
    rw [note_withLog, appendList_appendList]
    rfl

/-- One paced round is one round of the interrupt, after a wait for the period of the timer as
the round found it. -/
theorem round_paced (delays : Array UInt32) {timer : SoftTimer}
    (hs : p.board.timer.soft = some timer) (he : timer.enabled = true) :
    (⟨p.withLog log, delays⟩ : PacedPipeline).round =
      (p.round.1.2, ⟨p.round.2.withLog (log ++ withSkips p.roundRecords),
        delays.push timer.period⟩) := by
  have hsample : (⟨p.withLog log, delays⟩ : PacedPipeline).sampleAndWait =
      (some p.interrupt.1, ⟨p.interrupt.2.withLog (log ++ p.interruptRecords),
        delays.push timer.period⟩) := by
    have hsoft : (p.withLog log).board.timer.soft = some timer := hs
    simp [PacedPipeline.sampleAndWait, hsoft, he]
  simp [PacedPipeline.round, hsample, roundRecords, round,
    withSkips_of_noFailedRead (noFailedRead_serveEach _)]

/-- The waits of so many paced rounds, each of the period that the timer has when its round
begins. -/
def waits (p : Pipeline) : Nat → List UInt32
  | 0 => []
  | n + 1 => (p.board.timer.soft.map (·.period)).toList ++ p.round.2.waits n

theorem rounds_paced (n : Nat) (delays : Array UInt32) (h : p.board.timer.Running) :
    (⟨p.withLog log, delays⟩ : PacedPipeline).rounds n = ((p.rounds n).1.map (·.2),
      ⟨(p.rounds n).2.withLog (log ++ withSkips (p.roundsRecords n)), delays ++ p.waits n⟩) := by
  induction n generalizing p log delays with
  | zero =>
    simp [PacedPipeline.rounds, rounds, roundsRecords, waits, withSkips]
  | succ n ih =>
    have hnext := running_round h
    obtain ⟨timer, hs, he⟩ := h
    simp [PacedPipeline.rounds, p.round_paced log delays hs he, ih _ _ _ hnext, rounds,
      roundsRecords, waits, hs]

theorem running_rounds {p : Pipeline} (h : p.board.timer.Running) (n : Nat) :
    (p.rounds n).2.board.timer.Running := by
  induction n generalizing p with
  | zero => exact h
  | succ n ih => exact ih (running_round h)

theorem length_waits {p : Pipeline} (h : p.board.timer.Running) (n : Nat) :
    (p.waits n).length = n := by
  induction n generalizing p with
  | zero => rfl
  | succ n ih =>
    have hnext := ih (running_round h)
    obtain ⟨timer, hs, -⟩ := h
    simp only [waits, hs, Option.map_some, Option.toList_some, List.length_append,
      List.length_singleton, hnext]
    omega

theorem getElem?_waits {p : Pipeline} (h : p.board.timer.Running) {n k : Nat} (hk : k < n) :
    (p.waits n)[k]? = (p.rounds k).2.board.timer.soft.map (·.period) := by
  induction n generalizing p k with
  | zero => cases hk
  | succ n ih =>
    have hnext := running_round h
    obtain ⟨timer, hs, -⟩ := h
    simp only [waits, hs, Option.map_some, Option.toList_some, List.singleton_append]
    -- Later waits are those of the meter after its first round.
    cases k with
    | zero =>
      show some timer.period = p.board.timer.soft.map (·.period)
      rw [hs, Option.map_some]
    | succ k =>
      rw [List.getElem?_cons_succ]
      exact ih hnext (Nat.lt_of_succ_lt_succ hk)

end Pipeline

/-- So many paced rounds of a meter, with some delays behind it, against the rounds of the
interrupt. -/
structure PacedAlike (p : Pipeline) (delays : Array UInt32) (n : Nat) : Prop where
  served : (PacedPipeline.rounds ⟨p, delays⟩ n).1 = (p.rounds n).1.map (·.2)
  meter : ∃ log, (PacedPipeline.rounds ⟨p, delays⟩ n).2.pipeline = (p.rounds n).2.withLog log
  log : ∃ records : List LogRecord, (p.rounds n).2.board.log = p.board.log ++ records ∧
    (PacedPipeline.rounds ⟨p, delays⟩ n).2.pipeline.board.log = p.board.log ++ withSkips records ∧
    records.countP LogRecord.isFailedRead = (p.rounds n).1.countP readFailed
  running : ∀ k ≤ n, (PacedPipeline.rounds ⟨p, delays⟩ k).2.pipeline.board.timer.Running
  delays : ∃ waits : List UInt32, (PacedPipeline.rounds ⟨p, delays⟩ n).2.delays = delays ++ waits ∧
    waits.length = n ∧
    ∀ k < n, ∃ timer, (p.rounds k).2.board.timer.soft = some timer ∧
      waits[k]? = some timer.period

/-- Any number of paced rounds of a meter whose software timer is enabled. -/
theorem paced_rounds_alike {p : Pipeline} (h : p.board.timer.Running) (delays : Array UInt32)
    (n : Nat) : PacedAlike p delays n := by
  have hpaced := fun n => p.rounds_paced p.board.log n delays h
  constructor
  · exact congrArg (·.1) (hpaced n)
  · exact ⟨_, congrArg (·.2.pipeline) (hpaced n)⟩
  · exact ⟨p.roundsRecords n, p.log_rounds n, congrArg (·.2.pipeline.board.log) (hpaced n),
      p.countP_roundsRecords n⟩
  · intro k _
    have hk := congrArg (·.2.pipeline.board.timer) (hpaced k)
    exact hk ▸ Pipeline.running_rounds h k
  · refine ⟨p.waits n, congrArg (·.2.delays) (hpaced n), Pipeline.length_waits h n, ?_⟩
    intro k hk
    obtain ⟨later, hlater, -⟩ := Pipeline.running_rounds h k
    refine ⟨later, hlater, ?_⟩
    rw [Pipeline.getElem?_waits h hk, hlater, Option.map_some]

/-- A voltage read and a current read that fail, and crossings that ask for a shorter period. -/
def gappyScript : List Conversion :=
  [.done (-5), .done 0, .failed 3, .done 5, .busy 2, .done 0, .done (-5), .failed 4,
    .done (-5), .done 1]

/-- The usual meter on a software timer, with this script to read. -/
def gappyMeter : Pipeline := { softTimed with intake := .onto { script := gappyScript } }

/-- The fifth of six rounds reloads the timer, so the sixth wait is shorter. -/
theorem paced_rounds_alike_gappy :
    gappyMeter.board.timer.Running ∧ PacedAlike gappyMeter #[7] 6 ∧
      (gappyMeter.rounds 6).1.countP readFailed = 2 ∧
      (PacedPipeline.rounds ⟨gappyMeter, #[7]⟩ 6).2.delays.toList =
        7 :: List.replicate 5 1250000 ++ [1247480] :=
  ⟨⟨_, rfl, rfl⟩, paced_rounds_alike ⟨_, rfl, rfl⟩ #[7] 6, by decide +kernel, by decide +kernel⟩

end EnergyMeter
