import EnergyMeter.Proofs.RecordCounts
import EnergyMeter.Proofs.TimerInStep

/-!
# The log as an audit trail

The log alone tells what a run lost and where the sampling offset went. The moves of the offset
are recorded as a chain, from the offset that the meter started at to the one in force, and each
has the reload that it caused right behind it.
-/
namespace EnergyMeter

open Pipeline (usual builtFrom_usual)

/-- The offsets before and after a move. -/
def LogRecord.move? : LogRecord → Option (UInt8 × UInt8)
  | offsetMoved _ _ before after => some (before, after)
  | _ => none

/-- The moves lead from the first offset to the last, one step each and none left out. -/
def Leads (first last : UInt8) : List (UInt8 × UInt8) → Prop
  | [] => first = last
  | (before, after) :: rest => before = first ∧ OneStep before after ∧ Leads after last rest

/-- Every move of the offset has the reload for the offset it led to right behind it, with the
period of that offset and its load value. -/
def ReloadsFollow (settings : MeterSettings) (records : List LogRecord) : Prop :=
  ∀ (i : Nat) (ticks expected before after : UInt8),
    records[i]? = some (.offsetMoved ticks expected before after) →
      ∃ period load : UInt32, records[i + 1]? = some (.timerReloaded period load) ∧
        period.toNat = 1187350 + 2506 * after.toNat ∧ load.toNat = settings.loadAt after

theorem Leads.snoc {first last next : UInt8} {moves : List (UInt8 × UInt8)}
    (h : Leads first last moves) (hstep : OneStep last next) :
    Leads first next (moves ++ [(last, next)]) := by
  induction moves generalizing first with
  | nil =>
    obtain rfl : first = last := h
    exact ⟨rfl, hstep, rfl⟩
  | cons move rest ih =>
    obtain ⟨hbefore, hmove, hrest⟩ := h
    exact ⟨hbefore, hmove, ih hrest⟩

theorem ReloadsFollow.append {settings : MeterSettings} {records more : List LogRecord}
    (h : ReloadsFollow settings records) (hmore : ReloadsFollow settings more) :
    ReloadsFollow settings (records ++ more) := by
  intro i ticks expected before after hi
  rcases Nat.lt_or_ge i records.length with hlt | hge
  · -- A move that ends the first list would lack its reload there, so none does.
    rw [List.getElem?_append_left hlt] at hi
    obtain ⟨period, load, hnext, hreload⟩ := h i ticks expected before after hi
    have hlt' : i + 1 < records.length := (List.getElem?_eq_some_iff.mp hnext).1
    rw [List.getElem?_append_left hlt']
    exact ⟨period, load, hnext, hreload⟩
  · rw [List.getElem?_append_right hge] at hi
    rw [List.getElem?_append_right (Nat.le_succ_of_le hge), Nat.succ_sub hge]
    exact hmore _ ticks expected before after hi

theorem reloadsFollow_move {settings : MeterSettings} {clock : TickClock}
    (h : TickClock.ofHertz settings.clockHertz = .ok clock)
    (ticks expected before after : UInt8) :
    ReloadsFollow settings [.offsetMoved ticks expected before after,
      .timerReloaded (MainsOffset.period after) (clock.countdown (MainsOffset.period after))] := by
  rintro (_ | _ | i) _ _ _ _ hi
  · cases hi
    exact ⟨_, _, rfl, MainsOffset.toNat_period after, toNat_countdown_period h after⟩
  · cases hi
  · cases hi

section

variable {topics : List LogTopic} {records : List LogRecord}

theorem About.moves_eq_nil (h : About topics records) (ht : LogTopic.offset ∉ topics) :
    records.filterMap LogRecord.move? = [] := by
  rw [List.filterMap_eq_nil_iff]
  intro record hm
  cases record with
  | offsetMoved => exact absurd (h _ hm) ht
  | _ => rfl

theorem About.reloadsFollow (h : About topics records) (ht : LogTopic.offset ∉ topics)
    (settings : MeterSettings) : ReloadsFollow settings records := by
  intro i ticks expected before after hi
  exact absurd (h _ (List.mem_of_getElem? hi)) ht

end

/-- A move is recorded exactly when it is reported. -/
theorem FrequencyLoop.log_observe (loop : FrequencyLoop) (raw : Int16) :
    (loop.observe raw).log = (loop.observe raw).value.2.toList.map
      fun offset => .offsetMoved loop.ticks loop.expected loop.offset offset := by
  unfold observe
  cases loop.phase <;> cases crosses loop.previous raw <;> cases loop.moved? <;> rfl

/-- A sample leaves the offset and no record of it, or one step of the offset and its reload. -/
theorem VoltageStage.moveRecords_cases (stage : VoltageStage) (raw : Int16) :
    (stage.moveRecords raw = [] ∧
        (stage.loop.observe raw).value.1.offset = stage.loop.offset) ∨
      ∃ offset, OneStep stage.loop.offset offset ∧
        (stage.loop.observe raw).value.1.offset = offset ∧
        stage.moveRecords raw =
          [.offsetMoved stage.loop.ticks stage.loop.expected stage.loop.offset offset,
            .timerReloaded (MainsOffset.period offset)
              (stage.clock.countdown (MainsOffset.period offset))] := by
  rcases stage.loop.observe_offset raw with ⟨hn, ho⟩ | ⟨offset, hs, ho, hstep⟩
  · left
    simp [moveRecords, FrequencyLoop.log_observe, hn, ho]
  · right
    refine ⟨offset, hstep, ho, ?_⟩
    simp [moveRecords, FrequencyLoop.log_observe, hs, FrequencyLoop.period, ho]

/-- The log tells how the offset got from the one that the settings ask for to that of the meter. -/
structure OffsetLogged (settings : MeterSettings) (p : Pipeline) : Prop where
  clock : TickClock.ofHertz settings.clockHertz = .ok p.voltage.clock
  moves : Leads settings.startOffset p.voltage.loop.offset
    (p.board.log.toList.filterMap LogRecord.move?)
  reloads : ReloadsFollow settings p.board.log.toList

section

variable {settings : MeterSettings} {p q : Pipeline}

theorem OffsetLogged.quiet (h : OffsetLogged settings p) (hv : q.voltage.clock = p.voltage.clock)
    (ho : q.voltage.loop.offset = p.voltage.loop.offset) {records : List LogRecord}
    (hlog : q.board.log.toList = p.board.log.toList ++ records) {topics : List LogTopic}
    (habout : About topics records) (ht : LogTopic.offset ∉ topics) : OffsetLogged settings q := by
  constructor
  · rw [hv]
    exact h.clock
  · rw [ho, hlog, List.filterMap_append, habout.moves_eq_nil ht, List.append_nil]
    exact h.moves
  · rw [hlog]
    exact h.reloads.append (habout.reloadsFollow ht _)

theorem offsetLogged_handleVoltage (h : OffsetLogged settings p) (sample : Sample) :
    OffsetLogged settings (p.handleVoltage sample.voltage) := by
  have hlog := (Event.handled p .voltage sample).log_after
  have habout := p.voltage.rms.about_push sample.voltage
  change (p.handleVoltage sample.voltage).board.log.toList = p.board.log.toList ++
    (p.voltage.moveRecords sample.voltage ++ (p.voltage.rms.push sample.voltage).log) at hlog
  rcases p.voltage.moveRecords_cases sample.voltage with ⟨hnone, ho⟩ | ⟨offset, hstep, ho, hmove⟩
  · rw [hnone, List.nil_append] at hlog
    exact h.quiet rfl ho hlog habout (by decide)
  · -- The chain grows by this move; a full window is recorded behind the pair, not inside it.
    rw [hmove] at hlog
    constructor
    · exact h.clock
    · rw [hlog, List.filterMap_append, List.filterMap_append, habout.moves_eq_nil (by decide),
        List.append_nil]
      show Leads _ (p.voltage.loop.observe sample.voltage).value.1.offset _
      rw [ho]
      exact h.moves.snoc hstep
    · rw [hlog]
      exact h.reloads.append
        ((reloadsFollow_move h.clock _ _ _ _).append (habout.reloadsFollow (by decide) _))

theorem offsetLogged_event {e : Event} (h : OffsetLogged settings e.before) :
    OffsetLogged settings e.after := by
  have hlog := e.log_after
  cases e with
  | interrupted meter => exact h.quiet rfl rfl hlog meter.about_interruptRecords (by decide)
  | restarted meter => exact h.quiet rfl rfl hlog about_nil List.not_mem_nil
  | handled meter consumer sample =>
    have habout := meter.about_handleRecords consumer sample
    cases consumer with
    | voltage => exact offsetLogged_handleVoltage h sample
    | current => exact h.quiet rfl rfl hlog habout (by decide)
    | cycle => exact h.quiet rfl rfl hlog habout (by decide)

end

theorem offsetLogged_kept (settings : MeterSettings) :
    Kept (fun _ => True) fun _ p => OffsetLogged settings p := by
  apply kept_of_events
  · intro s hs _ p h
    have hv := (sameWork_setting hs p).voltage
    obtain ⟨records, hlog, habout⟩ := log_setting hs p
    exact h.quiet (congrArg (·.clock) hv) (congrArg (·.loop.offset) hv) hlog habout (by decide)
  · exact fun _ p queues h => ⟨h.clock, h.moves, h.reloads⟩
  · exact fun _ e h => offsetLogged_event h

theorem offsetLogged_built {settings : MeterSettings} {p : Pipeline} (h : p.BuiltFrom settings) :
    OffsetLogged settings p := by
  have hu := h.unused
  have habout := h.about_log
  constructor
  · exact hu.clock
  · rw [habout.moves_eq_nil (by decide), hu.loop, startLoop_offset h.accepted]
    rfl
  · exact habout.reloadsFollow (by decide) _

/-- The samples that a consumer handled, by the answers of a run. -/
def Pipeline.received (p : Pipeline) (consumer : Consumer) (steps : List Step) : List Sample :=
  (steps.zip (p.run steps).1).flatMap fun answered => handledIn consumer answered.1 answered.2

/-- The log of a run and what it tells. The lost pairs are on the counts of all intakes of the
run; an intake that is never replaced has them all. The records of full windows do not name their
channel, so they are told apart by the samples that left them. -/
structure Audited (settings : MeterSettings) (p : Pipeline) (steps : List Step) : Prop where
  pairs_dropped : ∃ losses : List Nat,
    (overrunCounts (p.events steps) (p.run steps).2).map UInt32.toNat =
      losses.map (min · (2 ^ 32 - 1)) ∧
    (p.run steps).2.recorded .channelQueue = losses.sum
  overruns : .restart ∉ steps → (p.run steps).2.intake.overruns.toNat =
    min ((p.run steps).2.recorded .channelQueue) (2 ^ 32 - 1)
  cycle_overruns : (p.run steps).2.current.overruns.toNat =
    min ((p.run steps).2.recorded .cycleQueue) (2 ^ 32 - 1)
  failures : (p.run steps).2.recorded .conversion =
    ((p.run steps).1.flatMap Outcome.faults).length
  moves : Leads settings.startOffset (p.run steps).2.voltage.loop.offset
    ((p.run steps).2.board.log.toList.filterMap LogRecord.move?)
  clock : TickClock.ofHertz settings.clockHertz = .ok (p.run steps).2.voltage.clock
  reloads : ReloadsFollow settings (p.run steps).2.board.log.toList
  windows : ∀ input : AnalogInput, ((p.events steps).flatMap (Event.windows input)).length =
    if 16 ≤ (p.received input.consumer steps).length then 1 else 0
  window_records : (p.run steps).2.recorded .window =
    ((p.events steps).flatMap (Event.windows .voltage)).length +
      ((p.events steps).flatMap (Event.windows .current)).length
  no_plan : (p.run steps).2.recorded .billing =
    if ∃ bill ∈ (p.run steps).1.flatMap Outcome.bills, bill.rate = 0 then 1 else 0

/-- At every moment of every run the log tells what was lost, what failed, where the offset went,
which windows are full and whether energy went unbilled. -/
theorem log_audited {settings : MeterSettings} {p : Pipeline} (hp : p.BuiltFrom settings)
    (steps : List Step) : Audited settings p steps := by
  have hcounted : Counted (p.events steps) (p.run steps).2 :=
    counted_kept.run (fun _ _ => trivial) (counted_built hp)
  have hoffset : OffsetLogged settings (p.run steps).2 :=
    (offsetLogged_kept settings).run (fun _ _ => trivial) (offsetLogged_built hp)
  have hpairs := (hp.recorded_run (by decide) (by decide) steps).trans
    (count_channelQueue_recordsOf (p.events steps))
  constructor
  · obtain ⟨losses, hl, hsum⟩ := hcounted.losses
    exact ⟨losses, hl, hpairs.trans hsum.symm⟩
  · intro hr
    rw [hpairs]
    exact hcounted.overruns (retired_run hr)
  · rw [hp.recorded_run (by decide) (by decide), count_cycleQueue_recordsOf]
    exact hcounted.current
  · rw [hp.recorded_run (by decide) (by decide), count_conversion_recordsOf, faults_events]
  · exact hoffset.moves
  · exact hoffset.clock
  · exact hoffset.reloads
  · intro input
    rw [count_windows_run hp, samplesHandled_events]
    rfl
  · rw [hp.recorded_run (by decide) (by decide), count_window_recordsOf]
  · rw [hp.recorded_run (by decide) (by decide), count_billing_run hp.unbilled]

/-- Interrupts that find the channels full and the converter at fault, a sample too many for the
cycle meter, half-cycles that are too short and one that is too long, and a cycle without a plan.
Only the voltage channel fills its window. -/
def restlessSteps : List Step :=
  List.flatten [[.appendScript ((List.range 12).map fun k => .done (Int16.ofNat k)),
      .appendScript [.failed 7, .done 1, .failed 2]], List.replicate 8 .interrupt,
    [.drain .current, .drain .voltage, .hand .current ⟨1, 1⟩],
    (List.replicate 5 [.hand .voltage ⟨5, 0⟩, .hand .voltage ⟨-5, 0⟩]).flatten,
    List.replicate 9 (.hand .voltage ⟨-5, 0⟩), [.hand .voltage ⟨5, 0⟩],
    List.replicate 17 (.hand .cycle ⟨5, 0⟩), [.setHour 3]]

theorem log_audited_restless :
    usual.BuiltFrom {} ∧ Audited {} usual restlessSteps ∧
      [.channelQueue, .cycleQueue, .conversion, .window, .billing].map
        (usual.run restlessSteps).2.recorded = [4, 1, 2, 1, 1] ∧
      (usual.run restlessSteps).2.board.log.toList.filterMap LogRecord.move? =
        [(25, 24), (24, 23), (23, 22), (22, 21), (21, 22)] :=
  ⟨builtFrom_usual, log_audited builtFrom_usual restlessSteps, by decide +kernel,
    by decide +kernel⟩

end EnergyMeter
