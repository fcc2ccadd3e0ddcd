import EnergyMeter.Proofs.Conservation

/-!
# The channels as functions of what they handled

Whatever the order of a run, both channels depend only on the samples that their consumers
handled: the estimators and the frequency loop have seen these samples in this order, the
timer was reloaded at each move of the loop, and the totals show the last sample.
-/
namespace EnergyMeter

namespace RunningRms

variable {capacity : Nat}

def pushAll (r : RunningRms capacity) (raws : List Int16) : RunningRms capacity :=
  raws.foldl (fun r raw => (r.push raw).value) r

@[simp] theorem rms_ofRatio (ratio : UInt32) : (ofRatio ratio : RunningRms capacity).rms = 0 := by
  show UInt16.ofNatClamp (0 * ratio.toNat) = 0
  rw [Nat.zero_mul]
  rfl

@[simp] theorem pushAll_snoc (r : RunningRms capacity) (raws : List Int16) (raw : Int16) :
    r.pushAll (raws ++ [raw]) = ((r.pushAll raws).push raw).value := by
  simp only [pushAll, List.foldl_append, List.foldl_cons, List.foldl_nil]

end RunningRms

namespace FrequencyLoop

def observeAll (loop : FrequencyLoop) (raws : List Int16) : FrequencyLoop :=
  raws.foldl (fun loop raw => (loop.observe raw).value.1) loop

/-- The offsets that a loop moves to, in order. -/
def moves (loop : FrequencyLoop) : List Int16 → List UInt8
  | [] => []
  | raw :: rest => (loop.observe raw).value.2.toList ++ (loop.observe raw).value.1.moves rest

@[simp] theorem observeAll_snoc (loop : FrequencyLoop) (raws : List Int16) (raw : Int16) :
    loop.observeAll (raws ++ [raw]) = ((loop.observeAll raws).observe raw).value.1 := by
  simp only [observeAll, List.foldl_append, List.foldl_cons, List.foldl_nil]

@[simp] theorem moves_snoc (loop : FrequencyLoop) (raws : List Int16) (raw : Int16) :
    loop.moves (raws ++ [raw]) =
      loop.moves raws ++ ((loop.observeAll raws).observe raw).value.2.toList := by
  induction raws generalizing loop with
  | nil => exact List.append_nil _
  | cons first rest ih =>
    rw [List.cons_append, moves, moves, ih, List.append_assoc]
    rfl

/-- A sample leaves the offset as it is and nothing is reported, or it moves the offset as its
half-cycle asks and the new one is reported. -/
theorem observe_moved (loop : FrequencyLoop) (raw : Int16) :
    ((loop.observe raw).value.2 = none ∧ (loop.observe raw).value.1.offset = loop.offset) ∨
      ∃ offset, loop.moved? = some offset ∧ (loop.observe raw).value.2 = some offset ∧
        (loop.observe raw).value.1.offset = offset := by
  unfold observe
  cases loop.phase with
  | unlocked =>
    left
    cases crosses loop.previous raw with
    | false => exact ⟨rfl, rfl⟩
    | true => exact ⟨rfl, rfl⟩
  | locked =>
    cases crosses loop.previous raw with
    | false => exact .inl ⟨rfl, rfl⟩
    | true =>
      cases hm : loop.moved? with
      | none => exact .inl ⟨rfl, rfl⟩
      | some offset => exact .inr ⟨offset, rfl, rfl, rfl⟩

end FrequencyLoop

/-- The calls that give a timer the period of each of these offsets. -/
def TickClock.reloads (clock : TickClock) (offsets : List UInt8) : List TimerCall :=
  offsets.flatMap fun offset => TimerCall.reload (clock.countdown (MainsOffset.period offset))

/-- What a consumer handled determines a relation, if the relation reads no more of a meter
than its stages, its totals and its timer, and only this consumer writes what it reads. -/
theorem kept_of_handled {P : List Sample → Pipeline → Prop}
    (consumer : Consumer)
    (hframe : ∀ (ss : List Sample) (p q : Pipeline), q.voltage = p.voltage →
      q.current = p.current → q.board.totals = p.board.totals → q.board.timer = p.board.timer →
      P ss p → P ss q)
    (hown : ∀ ss p sample, P ss p → P (ss ++ [sample]) (p.handle consumer sample).2)
    (hother : ∀ ss p other sample, other ≠ consumer → P ss p → P ss (p.handle other sample).2) :
    Kept (fun _ => True) fun es p => P (samplesHandled consumer es) p := by
  apply kept_of_events
  · intro s hs es p h
    have hw := sameWork_setting hs p
    exact hframe _ p _ hw.voltage hw.current hw.totals hw.timer h
  · intro es p queues h
    exact hframe _ p _ rfl rfl rfl rfl h
  · intro es e h
    rw [samplesHandled_snoc]
    cases e with
    | interrupted meter =>
      simp only [Event.handledBy, List.append_nil]
      exact hframe _ meter _ rfl rfl rfl rfl h
    | restarted meter =>
      simp only [Event.handledBy, List.append_nil]
      exact hframe _ meter _ rfl rfl rfl rfl h
    | handled meter server sample =>
      by_cases hs : server = consumer
      · subst hs
        rw [Event.handledBy, if_pos rfl]
        exact hown _ meter sample h
      · rw [Event.handledBy, if_neg hs, List.append_nil]
        exact hother _ meter server sample hs h

/-- The totals show the same last samples, RMS values and offset. -/
structure SameReadings (before after : Totals) : Prop where
  voltage : after.voltage = before.voltage
  current : after.current = before.current
  voltageRms : after.voltageRms = before.voltageRms
  currentRms : after.currentRms = before.currentRms
  frequencyOffset : after.frequencyOffset = before.frequencyOffset

theorem handleCycle_readings (p : Pipeline) (sample : Sample) :
    SameReadings p.board.totals (p.handleCycle sample).2.board.totals := by
  rw [p.handleCycle_totals]
  cases (p.handleCycle sample).1 with
  | none => exact ⟨rfl, rfl, rfl, rfl, rfl⟩
  | some bill => exact ⟨rfl, rfl, rfl, rfl, rfl⟩

/-- A meter whose voltage consumer handled these samples since the first. -/
structure VoltageFollowed (first : Pipeline) (samples : List Sample) (p : Pipeline) : Prop where
  rms : p.voltage.rms = first.voltage.rms.pushAll (samples.map (·.voltage))
  loop : p.voltage.loop = first.voltage.loop.observeAll (samples.map (·.voltage))
  clock : p.voltage.clock = first.voltage.clock
  timer : p.board.timer =
    (first.voltage.clock.reloads (first.voltage.loop.moves (samples.map (·.voltage)))).foldl
      TimerLink.perform first.board.timer
  last : p.board.totals.voltage =
    (samples.getLast?.map (·.voltage)).getD first.board.totals.voltage
  published : p.board.totals.voltageRms = p.voltage.rms.rms
  offset : p.board.totals.frequencyOffset = p.voltage.loop.offset

variable {first p : Pipeline} {samples : List Sample}

theorem voltageFollowed_unused {settings : MeterSettings} (h : p.Unused settings) :
    VoltageFollowed p [] p := by
  refine ⟨rfl, rfl, rfl, rfl, rfl, ?_, ?_⟩
  · rw [h.totals, h.voltage_rms, RunningRms.rms_ofRatio]
  · rw [h.totals, h.loop]

theorem handleVoltage_timer (p : Pipeline) (raw : Int16) :
    (p.handleVoltage raw).board.timer =
      (p.voltage.clock.reloads (p.voltage.loop.observe raw).value.2.toList).foldl
        TimerLink.perform p.board.timer := by
  rcases p.voltage.loop.observe_moved raw with ⟨hn, -⟩ | ⟨offset, -, hs, ho⟩
  · simp only [Pipeline.handleVoltage, VoltageStage.handle, hn, VoltageStage.follow]
    rfl
  · simp only [Pipeline.handleVoltage, VoltageStage.handle, hs, VoltageStage.follow,
      FrequencyLoop.period, ho]
    rfl

theorem voltageFollowed_handle (h : VoltageFollowed first samples p) (sample : Sample) :
    VoltageFollowed first (samples ++ [sample]) (p.handleVoltage sample.voltage) := by
  have ht := p.handleVoltage_totals sample.voltage
  have hmap : (samples ++ [sample]).map (·.voltage) =
      samples.map (·.voltage) ++ [sample.voltage] := List.map_append
  constructor
  · rw [hmap, RunningRms.pushAll_snoc, ← h.rms]
    rfl
  · rw [hmap, FrequencyLoop.observeAll_snoc, ← h.loop]
    rfl
  · exact h.clock
  · rw [hmap, FrequencyLoop.moves_snoc, ← h.loop, TickClock.reloads, List.flatMap_append,
      List.foldl_append, ← TickClock.reloads, ← h.timer, ← h.clock]
    exact handleVoltage_timer p sample.voltage
  · rw [ht, List.getLast?_append_of_ne_nil _ (List.cons_ne_nil sample [])]
    rfl
  · rw [ht]
  · rw [ht]

theorem voltageFollowed_kept (first : Pipeline) :
    Kept (fun _ => True) fun es p => VoltageFollowed first (samplesHandled .voltage es) p := by
  have hframe : ∀ (ss : List Sample) (p q : Pipeline), q.voltage = p.voltage →
      q.board.timer = p.board.timer → q.board.totals.voltage = p.board.totals.voltage →
      q.board.totals.voltageRms = p.board.totals.voltageRms →
      q.board.totals.frequencyOffset = p.board.totals.frequencyOffset →
      VoltageFollowed first ss p → VoltageFollowed first ss q := by
    intro ss p q hv ht h1 h2 h3 h
    constructor
    · rw [hv]; exact h.rms
    · rw [hv]; exact h.loop
    · rw [hv]; exact h.clock
    · rw [ht]; exact h.timer
    · rw [h1]; exact h.last
    · rw [h2, hv]; exact h.published
    · rw [h3, hv]; exact h.offset
  apply kept_of_handled
  · intro ss p q hv _ ht htimer h
    exact hframe ss p q hv htimer (by rw [ht]) (by rw [ht]) (by rw [ht]) h
  · intro ss p sample h
    exact voltageFollowed_handle h sample
  · intro ss p other sample hne h
    cases other with
    | voltage => exact absurd rfl hne
    | current =>
      have ht := p.handleCurrent_totals sample
      exact hframe ss p (p.handleCurrent sample) rfl (p.handleCurrent_timer sample) (by rw [ht])
        (by rw [ht]) (by rw [ht]) h
    | cycle =>
      have hr := handleCycle_readings p sample
      exact hframe ss p (p.handleCycle sample).2 rfl rfl hr.voltage hr.voltageRms
        hr.frequencyOffset h

theorem voltageFollowed_run {settings : MeterSettings} (h : p.Unused settings)
    (steps : List Step) :
    VoltageFollowed p (samplesHandled .voltage (p.events steps)) (p.run steps).2 :=
  (voltageFollowed_kept p).run (fun _ _ => trivial) (voltageFollowed_unused h)

/-- A meter whose current consumer handled these samples since the first. -/
structure CurrentFollowed (first : Pipeline) (samples : List Sample) (p : Pipeline) : Prop where
  rms : p.current.rms = first.current.rms.pushAll (samples.map (·.current))
  last : p.board.totals.current =
    (samples.getLast?.map (·.current)).getD first.board.totals.current
  published : p.board.totals.currentRms = p.current.rms.rms

theorem currentFollowed_unused {settings : MeterSettings} (h : p.Unused settings) :
    CurrentFollowed p [] p := by
  refine ⟨rfl, rfl, ?_⟩
  rw [h.totals, h.current, RunningRms.rms_ofRatio]

theorem handleCurrent_rms (p : Pipeline) (sample : Sample) :
    (p.handleCurrent sample).current.rms = (p.current.rms.push sample.current).value := by
  unfold Pipeline.handleCurrent CurrentStage.handle
  cases p.queues.cycle.send? sample <;> rfl

theorem currentFollowed_handle (h : CurrentFollowed first samples p) (sample : Sample) :
    CurrentFollowed first (samples ++ [sample]) (p.handleCurrent sample) := by
  have ht := p.handleCurrent_totals sample
  constructor
  · rw [List.map_append, List.map_singleton, RunningRms.pushAll_snoc, ← h.rms]
    exact handleCurrent_rms p sample
  · rw [ht, List.getLast?_append_of_ne_nil _ (List.cons_ne_nil sample [])]
    rfl
  · rw [ht]

theorem currentFollowed_kept (first : Pipeline) :
    Kept (fun _ => True) fun es p => CurrentFollowed first (samplesHandled .current es) p := by
  have hframe : ∀ (ss : List Sample) (p q : Pipeline), q.current = p.current →
      q.board.totals.current = p.board.totals.current →
      q.board.totals.currentRms = p.board.totals.currentRms →
      CurrentFollowed first ss p → CurrentFollowed first ss q := by
    intro ss p q hc h1 h2 h
    constructor
    · rw [hc]; exact h.rms
    · rw [h1]; exact h.last
    · rw [h2, hc]; exact h.published
  apply kept_of_handled
  · intro ss p q _ hc ht _ h
    exact hframe ss p q hc (by rw [ht]) (by rw [ht]) h
  · intro ss p sample h
    exact currentFollowed_handle h sample
  · intro ss p other sample hne h
    cases other with
    | current => exact absurd rfl hne
    | voltage =>
      have ht := p.handleVoltage_totals sample.voltage
      exact hframe ss p (p.handleVoltage sample.voltage) rfl (by rw [ht]) (by rw [ht]) h
    | cycle =>
      have hr := handleCycle_readings p sample
      exact hframe ss p (p.handleCycle sample).2 rfl hr.current hr.currentRms h

theorem currentFollowed_run {settings : MeterSettings} (h : p.Unused settings)
    (steps : List Step) :
    CurrentFollowed p (samplesHandled .current (p.events steps)) (p.run steps).2 :=
  (currentFollowed_kept p).run (fun _ _ => trivial) (currentFollowed_unused h)

end EnergyMeter
