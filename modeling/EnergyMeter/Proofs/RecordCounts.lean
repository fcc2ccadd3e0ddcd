import EnergyMeter.Proofs.BillingTotals
import EnergyMeter.Proofs.EventRecords
import EnergyMeter.Proofs.RunningRoot

/-!
# Counting the records of a run

A lost sample is recorded by whoever counts it, and a failed conversion by the interrupt that it
ends, so these records are as many as the losses and the faults of the run. A full window is
recorded once by each channel since a window never empties, and cycles without a plan are
recorded once since the cycle meter takes note of its record.
-/
namespace EnergyMeter

theorem countAbout_ownRecords {topic : LogTopic} (h : topic ≠ .setting) (log : Array LogRecord) :
    countAbout topic (ownRecords log) = countAbout topic log.toList := by
  rw [countAbout, ownRecords, List.countP_filter, countAbout]
  apply List.countP_congr
  intro record _
  simp only [Bool.and_eq_true, decide_eq_true_iff]
  constructor
  · exact And.left
  · rintro rfl
    exact ⟨rfl, h⟩

namespace Pipeline

/-- How many records of the log are about a topic. -/
def recorded (p : Pipeline) (topic : LogTopic) : Nat := countAbout topic p.board.log.toList

/-- A meter just built has recorded the reload of its timer and the start. -/
theorem BuiltFrom.about_log {settings : MeterSettings} {p : Pipeline} (h : p.BuiltFrom settings) :
    About [.timer] p.board.log.toList := by
  obtain ⟨soft, built, hb, script, active, store, scale, hour, rfl⟩ := h
  obtain ⟨clock, -, -, rfl⟩ := start_eq_ok hb
  intro record hm
  have hlog : record = .timerReloaded (startLoop settings).period
        (clock.countdown (startLoop settings).period) ∨
      record = .samplingStarted (startLoop settings).period (startLoop settings).offset := by
    simpa [Board.publish, Board.note, Board.retune, TimerLink.retune, bareBoard] using hm
  rcases hlog with rfl | rfl <;> exact List.mem_cons_self

theorem BuiltFrom.recorded_run {settings : MeterSettings} {p : Pipeline} (h : p.BuiltFrom settings)
    {topic : LogTopic} (hs : topic ≠ .setting) (ht : topic ≠ .timer) (steps : List Step) :
    (p.run steps).2.recorded topic = countAbout topic (recordsOf (p.events steps)) := by
  have hstart : countAbout topic p.board.log.toList = 0 :=
    h.about_log.countAbout_eq fun hm => ht (List.mem_singleton.mp hm)
  rw [recorded, ← countAbout_ownRecords hs, ownRecords_run, countAbout_append,
    countAbout_ownRecords hs, hstart, Nat.zero_add]

end Pipeline

/-- A count of records is what adds up as the records of the events do. -/
theorem countAbout_recordsOf {topic : LogTopic} (total : List Event → Nat) (hnil : total [] = 0)
    (happend : ∀ es e, total (es ++ [e]) = total es + total [e])
    (hone : ∀ e : Event, countAbout topic e.records = total [e]) (es : List Event) :
    countAbout topic (recordsOf es) = total es := by
  induction es using List.reverseRecOn with
  | nil => exact hnil.symm
  | append_singleton es e ih => simp [ih, hone, happend]

theorem SampleQueues.countAbout_dropRecords (queues : SampleQueues) :
    countAbout .channelQueue queues.dropRecords = queues.voltage.loss + queues.current.loss := by
  rw [dropRecords, countAbout_append, SampleQueue.loss, SampleQueue.loss]
  congr 1
  · split <;> rfl
  · split <;> rfl

theorem CurrentStage.countAbout_records (stage : CurrentStage) (cycleQueue : SampleQueue)
    (sample : Sample) :
    countAbout .cycleQueue (stage.records cycleQueue sample) = cycleQueue.loss := by
  have hwindow : countAbout .cycleQueue (stage.rms.push sample.current).log = 0 :=
    (stage.rms.about_push sample.current).countAbout_eq (by decide)
  rw [records, countAbout_append, hwindow, Nat.zero_add, SampleQueue.loss]
  split <;> rfl

/-- The faults of an interrupt. -/
def Event.faults (e : Event) : List Fault :=
  e.answers.flatMap fun answer => match answer with
    | .error fault => [fault]
    | .ok _ => []

/-- The fault that a step answered. -/
def Outcome.faults : Outcome → List Fault
  | .sampled (.error fault) => [fault]
  | _ => []

theorem faults_events (p : Pipeline) (steps : List Step) :
    (p.events steps).flatMap Event.faults = (p.run steps).1.flatMap Outcome.faults := by
  apply flatMap_answers (fun _ => rfl)
  intro outcome
  cases outcome with
  | sampled result => cases result <;> rfl
  | done | restarted | served | drained | handed | sent | received | planned => rfl

namespace Event

theorem count_channelQueue (e : Event) : countAbout .channelQueue e.records =
    (lostBy .voltage [e]).length + (lostBy .current [e]).length := by
  cases e with
  | interrupted meter =>
    rw [records]
    obtain ⟨sample, hr, hlog⟩ | ⟨input, code, hr, hlog⟩ := meter.interruptRecords_cases
    · obtain ⟨hv, hc⟩ := length_lostBy_ok hr
      rw [hlog, SampleQueues.countAbout_dropRecords, hv, hc]
    · rw [hlog, lostBy_error hr, lostBy_error hr]
      rfl
  | restarted meter => rfl
  | handled meter consumer sample =>
    apply (meter.about_handleRecords consumer sample).countAbout_eq
    cases consumer <;> decide

theorem count_cycleQueue (e : Event) :
    countAbout .cycleQueue e.records = (lostBy .cycle [e]).length := by
  cases e with
  | interrupted meter => exact meter.about_interruptRecords.countAbout_eq (by decide)
  | restarted meter => rfl
  | handled meter consumer sample =>
    cases consumer with
    | voltage => exact (meter.about_handleRecords .voltage sample).countAbout_eq (by decide)
    | current =>
      rw [length_lostBy_handled]
      exact meter.current.countAbout_records meter.queues.cycle sample
    | cycle => exact (meter.about_handleRecords .cycle sample).countAbout_eq (by decide)

theorem count_conversion (e : Event) : countAbout .conversion e.records = e.faults.length := by
  cases e with
  | interrupted meter =>
    rw [records]
    obtain ⟨sample, hr, hlog⟩ | ⟨input, code, hr, hlog⟩ := meter.interruptRecords_cases
    · have hdrop : countAbout .conversion meter.queues.dropRecords = 0 :=
        meter.queues.about_dropRecords.countAbout_eq (by decide)
      rw [hlog, hdrop]
      simp [faults, answers, hr]
    · rw [hlog]
      simp [faults, answers, hr, countAbout, LogRecord.topic]
  | restarted meter => rfl
  | handled meter consumer sample =>
    apply (meter.about_handleRecords consumer sample).countAbout_eq
    cases consumer <;> decide

end Event

theorem count_channelQueue_recordsOf (es : List Event) : countAbout .channelQueue (recordsOf es) =
    (lostBy .voltage es).length + (lostBy .current es).length := by
  apply countAbout_recordsOf fun es => (lostBy .voltage es).length + (lostBy .current es).length
  · rfl
  · intro es e
    simp only [lostBy_append, List.length_append]
    omega
  · exact Event.count_channelQueue

theorem count_cycleQueue_recordsOf (es : List Event) :
    countAbout .cycleQueue (recordsOf es) = (lostBy .cycle es).length := by
  apply countAbout_recordsOf fun es => (lostBy .cycle es).length
  · rfl
  · intro es e
    simp only [lostBy_append, List.length_append]
  · exact Event.count_cycleQueue

theorem count_conversion_recordsOf (es : List Event) :
    countAbout .conversion (recordsOf es) = (es.flatMap Event.faults).length := by
  apply countAbout_recordsOf fun es => (es.flatMap Event.faults).length
  · rfl
  · intro es e
    simp only [List.flatMap_append, List.length_append]
  · intro e
    simp only [e.count_conversion, List.flatMap_singleton]

/-- The cycle meter leaves its record when it takes note of it, and at no other time. -/
theorem CycleMeter.countAbout_add (meter : CycleMeter) (terms : BillingTerms) (totals : Totals)
    (sample : Sample) :
    (if meter.warned then 1 else 0) + countAbout .billing (meter.add terms totals sample).log =
      if (meter.add terms totals sample).value.meter.warned then 1 else 0 := by
  by_cases hopen : meter.count + 1 < UInt8.ofNat DesignPoint.cycleLength
  · simp only [add, hopen, if_true]
    rfl
  · simp only [add, hopen, if_false, reports]
    by_cases hw : meter.warned <;> by_cases hr : terms.rate == 0 <;>
      simp [hw, hr, countAbout, LogRecord.topic]

theorem warned_kept : Kept (fun _ => True) fun es p =>
    countAbout .billing (recordsOf es) = if p.cycle.warned then 1 else 0 := by
  apply kept_of_events
  · intro s hs es p h
    rw [(sameWork_setting hs p).cycle]
    exact h
  · exact fun es p queues h => h
  · intro es e h
    rw [recordsOf_snoc, countAbout_append, h]
    -- Only the cycle meter changes the flag, and nobody else records this.
    cases e with
    | interrupted meter =>
      rw [Event.records, meter.about_interruptRecords.countAbout_eq (by decide)]
      rfl
    | restarted meter => rfl
    | handled meter consumer sample =>
      rw [Event.records]
      cases consumer with
      | voltage =>
        rw [(meter.about_handleRecords .voltage sample).countAbout_eq (by decide)]
        rfl
      | current =>
        rw [(meter.about_handleRecords .current sample).countAbout_eq (by decide)]
        rfl
      | cycle => exact meter.cycle.countAbout_add meter.terms meter.board.totals sample

/-- One record is left by the cycles of a run, if one of them closed at a rate of zero. -/
theorem count_billing_run {p : Pipeline} (h : p.Unbilled) (steps : List Step) :
    countAbout .billing (recordsOf (p.events steps)) =
      if ∃ bill ∈ (p.run steps).1.flatMap Outcome.bills, bill.rate = 0 then 1 else 0 := by
  have hnone : countAbout .billing (recordsOf []) = if p.cycle.warned then 1 else 0 := by
    rw [h.cycle]
    rfl
  have hkept : countAbout .billing (recordsOf (p.events steps)) =
      if (p.run steps).2.cycle.warned then 1 else 0 := warned_kept.run (fun _ _ => trivial) hnone
  rw [hkept, (booked_run h steps).warned, bills_events]
  simp only [List.any_eq_true, beq_iff_eq]

def Sample.raw (sample : Sample) : AnalogInput → Int16
  | .voltage => sample.voltage
  | .current => sample.current

def MeterSettings.ratio (settings : MeterSettings) : AnalogInput → UInt32
  | .voltage => settings.voltageRatio
  | .current => settings.currentRatio

/-- The running RMS of a channel. -/
def Pipeline.estimator (p : Pipeline) : AnalogInput → RunningRms DesignPoint.cycleLength
  | .voltage => p.voltage.rms
  | .current => p.current.rms

/-- A sample of the voltage records its full window after a move of the offset. -/
theorem VoltageStage.filter_records (stage : VoltageStage) (raw : Int16) :
    (stage.records raw).filter (·.topic = .window) = (stage.rms.push raw).log := by
  rw [records, List.filter_append, (stage.about_moveRecords raw).filter_eq_nil (by decide),
    (stage.rms.about_push raw).filter_eq_self, List.nil_append]

theorem CurrentStage.filter_records (stage : CurrentStage) (cycleQueue : SampleQueue)
    (sample : Sample) : (stage.records cycleQueue sample).filter (·.topic = .window) =
      (stage.rms.push sample.current).log := by
  rw [records, List.filter_append, (stage.rms.about_push sample.current).filter_eq_self]
  split
  · exact List.append_nil _
  · exact List.append_nil _

namespace Event

/-- The words of a channel that an event hands to its consumer. -/
def raws (input : AnalogInput) (e : Event) : List Int16 :=
  (e.handledBy input.consumer).map (·.raw input)

/-- The records of full windows that a channel leaves. -/
def windows (input : AnalogInput) (e : Event) : List LogRecord :=
  (e.recordsBy input.consumer).filter (·.topic = .window)

/-- Only its own consumer feeds a channel, which leaves the records of what it was fed. -/
theorem estimator_after (input : AnalogInput) (e : Event) :
    e.after.estimator input = (e.before.estimator input).pushAll (e.raws input) ∧
      e.windows input = (e.before.estimator input).records (e.raws input) := by
  cases e with
  | interrupted meter => cases input <;> exact ⟨rfl, rfl⟩
  | restarted meter => cases input <;> exact ⟨rfl, rfl⟩
  | handled meter consumer sample =>
    cases consumer with
    | voltage =>
      cases input with
      | voltage =>
        refine ⟨rfl, ?_⟩
        exact (meter.voltage.filter_records sample.voltage).trans (List.append_nil _).symm
      | current => exact ⟨rfl, rfl⟩
    | current =>
      cases input with
      | voltage => exact ⟨rfl, rfl⟩
      | current =>
        refine ⟨handleCurrent_rms meter sample, ?_⟩
        exact (meter.current.filter_records meter.queues.cycle sample).trans
          (List.append_nil _).symm
    | cycle => cases input <;> exact ⟨rfl, rfl⟩

/-- A record of a full window is one of these. -/
theorem count_window (e : Event) : countAbout .window e.records =
    (e.windows .voltage).length + (e.windows .current).length := by
  cases e with
  | interrupted meter => exact meter.about_interruptRecords.countAbout_eq (by decide)
  | restarted meter => rfl
  | handled meter consumer sample =>
    cases consumer with
    | voltage => exact List.countP_eq_length_filter
    | current => exact List.countP_eq_length_filter.trans (Nat.zero_add _).symm
    | cycle => exact (meter.about_handleRecords .cycle sample).countAbout_eq (by decide)

end Event

theorem count_window_recordsOf (es : List Event) : countAbout .window (recordsOf es) =
    (es.flatMap (Event.windows .voltage)).length + (es.flatMap (Event.windows .current)).length := by
  apply countAbout_recordsOf fun es =>
    (es.flatMap (Event.windows .voltage)).length + (es.flatMap (Event.windows .current)).length
  · rfl
  · intro es e
    simp only [List.flatMap_append, List.length_append]
    omega
  · intro e
    simp only [e.count_window, List.flatMap_singleton]

/-- The words of a channel that its consumer handled. -/
def rawsHandled (input : AnalogInput) (es : List Event) : List Int16 :=
  (samplesHandled input.consumer es).map (·.raw input)

theorem windows_kept (settings : MeterSettings) (input : AnalogInput) :
    Kept (fun _ => True) fun es p =>
      p.estimator input = RunningRms.fed _ (settings.ratio input) (rawsHandled input es) ∧
      es.flatMap (Event.windows input) =
        RunningRms.fedRecords DesignPoint.cycleLength (settings.ratio input)
          (rawsHandled input es) := by
  apply kept_of_events
  · intro s hs es p h
    have hw := sameWork_setting hs p
    have hsame : (p.step s).2.estimator input = p.estimator input := by
      cases input with
      | voltage => exact congrArg VoltageStage.rms hw.voltage
      | current => exact congrArg CurrentStage.rms hw.current
    rw [hsame]
    exact h
  · intro es p queues h
    cases input <;> exact h
  · rintro es e ⟨hrms, hrecords⟩
    obtain ⟨hafter, hwindows⟩ := e.estimator_after input
    have hraws : rawsHandled input (es ++ [e]) = rawsHandled input es ++ e.raws input := by
      rw [rawsHandled, samplesHandled_snoc, List.map_append]
      rfl
    constructor
    · rw [hafter, hraws, hrms, RunningRms.fed_append]
    · rw [List.flatMap_append, List.flatMap_singleton, hwindows, hraws, hrecords, hrms]
      exact (RunningRms.records_append _ _ _).symm

/-- A channel has recorded a full window once if its consumer handled sixteen samples or more, and
never before. -/
theorem count_windows_run {settings : MeterSettings} {p : Pipeline} (hp : p.BuiltFrom settings)
    (steps : List Step) (input : AnalogInput) :
    ((p.events steps).flatMap (Event.windows input)).length =
      if 16 ≤ (samplesHandled input.consumer (p.events steps)).length then 1 else 0 := by
  have hstart : p.estimator input = .ofRatio (settings.ratio input) := by
    have hu := hp.unused
    cases input with
    | voltage => exact hu.voltage_rms
    | current => exact congrArg CurrentStage.rms hu.current
  obtain ⟨-, hrecords⟩ := (windows_kept settings input).run (fun _ _ => trivial) ⟨hstart, rfl⟩
  have hlength : (rawsHandled input (p.events steps)).length =
      (samplesHandled input.consumer (p.events steps)).length := List.length_map _
  rw [hrecords, ← hlength]
  have hpos : 0 < DesignPoint.cycleLength := by decide
  split
  · next hfull =>
    rw [RunningRms.fedRecords_full hpos hfull]
    rfl
  · next hshort =>
    rw [(RunningRms.fed_filling hpos (Nat.lt_of_not_le hshort)).2]
    rfl

end EnergyMeter
