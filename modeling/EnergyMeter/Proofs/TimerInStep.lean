import EnergyMeter.Proofs.LoadValues
import EnergyMeter.Proofs.OffsetMoves

/-!
# The timer, the frequency loop and the published offset agree

The timer is loaded once when the meter is built and once for each move of the loop, and for
nothing else. So at every moment of every run the load value, the offset of the loop and the
published offset belong together, and a software timer that nobody else touches is enabled at
the period of that offset.
-/
namespace EnergyMeter

open Pipeline (startLoop softTimed builtFrom_softTimed)

namespace TimerLink

theorem calls_foldl (link : TimerLink) (calls : List TimerCall) :
    (calls.foldl perform link).calls.toList = link.calls.toList ++ calls := by
  induction calls generalizing link with
  | nil => exact (List.append_nil _).symm
  | cons call rest ih =>
    rw [List.foldl_cons, ih, perform, Array.toList_push, List.append_assoc]
    rfl

theorem soft_foldl (link : TimerLink) (calls : List TimerCall) :
    (calls.foldl perform link).soft =
      link.soft.map fun timer => calls.foldl SoftTimer.perform timer := by
  induction calls generalizing link with
  | nil => exact (congrFun Option.map_id link.soft).symm
  | cons call rest ih =>
    rw [List.foldl_cons, ih, perform, Option.map_map]
    rfl

end TimerLink

/-- After any number of reloads a timer runs at the load value of the last. -/
theorem SoftTimer.foldl_reloads (timer : SoftTimer) (clock : TickClock) {offsets : List UInt8}
    {last : UInt8} (h : offsets.getLast? = some last) :
    (clock.reloads offsets).foldl SoftTimer.perform timer =
      { timer with load := clock.countdown (MainsOffset.period last), enabled := true } := by
  induction offsets generalizing timer with
  | nil => cases h
  | cons offset rest ih =>
    cases rest with
    | nil =>
      obtain rfl := Option.some.inj h
      rfl
    | cons next more =>
      rw [List.getLast?_cons_cons] at h
      exact ih _ h

theorem startOffset_le {settings : MeterSettings} (h : settings.check = .ok ()) :
    settings.startOffset ≤ DesignPoint.offsetMax := by
  unfold MeterSettings.check at h
  split at h
  · cases h
  · split at h
    · cases h
    split at h
    · cases h
    split at h
    · cases h
    · next ho => exact UInt8.not_lt.mp ho

/-- Accepted settings are not clamped. -/
theorem startLoop_offset {settings : MeterSettings} (h : settings.check = .ok ()) :
    (startLoop settings).offset = settings.startOffset := by
  have hmin : min settings.startOffset DesignPoint.offsetMax = settings.startOffset :=
    if_pos (startOffset_le h)
  show max DesignPoint.offsetMin (min settings.startOffset DesignPoint.offsetMax) = _
  rw [hmin]
  exact if_pos UInt8.zero_le

/-- A meter just built has loaded its timer once, for the offset that it starts at. A software
timer behind the link has the clock of the meter. -/
theorem Pipeline.BuiltFrom.timer {settings : MeterSettings} {p : Pipeline}
    (h : p.BuiltFrom settings) : ∃ soft : Option SoftTimer,
      (∀ timer, soft = some timer → timer.clock = p.voltage.clock) ∧
      p.board.timer = (p.voltage.clock.reloads [settings.startOffset]).foldl
        TimerLink.perform { soft } := by
  have ho := startLoop_offset h.accepted
  obtain ⟨soft, built, hb, script, active, store, scale, hour, rfl⟩ := h
  obtain ⟨clock, -, hk, rfl⟩ := start_eq_ok hb
  refine ⟨(bareBoard settings soft).timer.soft, ?_, ?_⟩
  · intro timer ht
    cases soft with
    | false => cases ht
    | true =>
      simp only [bareBoard, hk, if_true, Except.toOption, Option.map_some, Option.some.injEq] at ht
      rw [← ht]
  · rw [← ho]
    rfl

namespace MeterSettings

/-- The whole nanoseconds of a tick. -/
def tick (settings : MeterSettings) : Nat := 1000000000 / settings.clockHertz.toNat

/-- The load value of an offset, in exact numbers. -/
def loadAt (settings : MeterSettings) (offset : UInt8) : Nat :=
  (1187350 + 2506 * offset.toNat) / settings.tick - 1

/-- The offsets that a meter samples at: the one it starts at, then each that its frequency loop
reports on these voltages. -/
def offsetsOn (settings : MeterSettings) (raws : List Int16) : List UInt8 :=
  settings.startOffset :: (startLoop settings).moves raws

end MeterSettings

/-- What is told of a timer and published is the offset of the loop, which has seen these
voltages. -/
structure TimerInStep (settings : MeterSettings) (raws : List Int16) (p : Pipeline) : Prop where
  loop : p.voltage.loop = (startLoop settings).observeAll raws
  published : p.board.totals.frequencyOffset = p.voltage.loop.offset
  in_range : p.voltage.loop.offset.toNat ≤ 50
  last : (settings.offsetsOn raws).getLast? = some p.board.totals.frequencyOffset
  calls : ∃ loads : List UInt32,
    p.board.timer.calls.toList = loads.flatMap (fun load => [.disable, .load load, .enable]) ∧
    loads.map UInt32.toNat = (settings.offsetsOn raws).map settings.loadAt
  corrections : settings.tick ≤ 2506 → (settings.offsetsOn raws).IsChain fun before after =>
    (before < after ∧ settings.loadAt before < settings.loadAt after) ∨
      (after < before ∧ settings.loadAt after < settings.loadAt before)
  soft : ∀ timer, p.board.timer.soft = some timer → timer.enabled = true ∧
    timer.load.toNat = settings.loadAt p.board.totals.frequencyOffset ∧
    timer.period.toNat =
      max 1 ((1187350 + 2506 * p.board.totals.frequencyOffset.toNat) / settings.tick) *
        settings.tick

section

variable {settings : MeterSettings} {clock : TickClock}

theorem toNat_countdown_period (h : TickClock.ofHertz settings.clockHertz = .ok clock)
    (offset : UInt8) :
    (clock.countdown (MainsOffset.period offset)).toNat = settings.loadAt offset := by
  rw [TickClock.toNat_countdown, MainsOffset.toNat_period, TickClock.tick_of_ofHertz h]
  rfl

/-- Each move of the offset moves the load value in the same direction. -/
theorem loadAt_lt (h : TickClock.ofHertz settings.clockHertz = .ok clock)
    (ht : settings.tick ≤ 2506) {offset other : UInt8} (hlt : offset < other) :
    settings.loadAt offset < settings.loadAt other := by
  have htick : clock.tick.toNat ≤ 2506 := by
    rw [TickClock.tick_of_ofHertz h]
    exact ht
  have hc := countdown_period_lt htick hlt
  rwa [UInt32.lt_iff_toNat_lt, toNat_countdown_period h, toNat_countdown_period h] at hc

theorem corrections_of_isChain (h : TickClock.ofHertz settings.clockHertz = .ok clock)
    (ht : settings.tick ≤ 2506) {offsets : List UInt8} (hc : offsets.IsChain OneStep) :
    offsets.IsChain fun before after =>
      (before < after ∧ settings.loadAt before < settings.loadAt after) ∨
        (after < before ∧ settings.loadAt after < settings.loadAt before) := by
  refine hc.imp fun before after hstep => ?_
  rcases hstep with ⟨hup, -⟩ | hdown
  · have hlt : before < after := UInt8.lt_iff_toNat_lt.mpr (by omega)
    exact .inl ⟨hlt, loadAt_lt h ht hlt⟩
  · have hlt : after < before := UInt8.lt_iff_toNat_lt.mpr (by omega)
    exact .inr ⟨hlt, loadAt_lt h ht hlt⟩

/-- A software timer of the meter's clock runs at the last offset that it was reloaded for. -/
theorem softTimer_reloaded (h : TickClock.ofHertz settings.clockHertz = .ok clock)
    {timer : SoftTimer} (hc : timer.clock = clock) {offsets : List UInt8} {last : UInt8}
    (hl : offsets.getLast? = some last) :
    let reloaded := (clock.reloads offsets).foldl SoftTimer.perform timer
    reloaded.enabled = true ∧ reloaded.load.toNat = settings.loadAt last ∧
      reloaded.period.toNat =
        max 1 ((1187350 + 2506 * last.toNat) / settings.tick) * settings.tick := by
  intro reloaded
  have hr : reloaded = _ := timer.foldl_reloads clock hl
  have hload : reloaded.load = reloaded.clock.countdown (MainsOffset.period last) := by
    rw [hr, hc]
  have hclock : reloaded.clock = clock := by
    rw [hr]
    exact hc
  refine ⟨?_, ?_, ?_⟩
  · rw [hr]
  · rw [hload, hclock]
    exact toNat_countdown_period h last
  · rw [SoftTimer.toNat_period_of_load hload, MainsOffset.toNat_period, hclock,
      TickClock.tick_of_ofHertz h]
    rfl

end

/-- The timer of a meter that handled these samples was loaded for every offset that the meter
sampled at, from the start on. -/
theorem timer_of_followed {settings : MeterSettings} {p q : Pipeline} {samples : List Sample}
    (hu : p.Unused settings) {link : TimerLink}
    (ht : p.board.timer =
      (p.voltage.clock.reloads [settings.startOffset]).foldl TimerLink.perform link)
    (hv : VoltageFollowed p samples q) :
    q.board.timer = (p.voltage.clock.reloads (settings.offsetsOn (samples.map (·.voltage)))).foldl
      TimerLink.perform link := by
  rw [hv.timer, ht, ← List.foldl_append, hu.loop]
  rfl

theorem timerInStep_of_followed {settings : MeterSettings} {p q : Pipeline} {samples : List Sample}
    (hp : p.BuiltFrom settings) (hv : VoltageFollowed p samples q) :
    TimerInStep settings (samples.map (·.voltage)) q ∧
      q.board.timer.soft.isSome = p.board.timer.soft.isSome := by
  have hu := hp.unused
  have hk := hu.clock
  have hstart := startLoop_offset hp.accepted
  have hstart_le : (startLoop settings).offset.toNat ≤ 50 := by
    rw [hstart]
    exact UInt8.le_iff_toNat_le.mp (startOffset_le hp.accepted)
  obtain ⟨soft, hsoft, hbuilt⟩ := hp.timer
  have htimer := timer_of_followed hu hbuilt hv
  have hloop : q.voltage.loop = (startLoop settings).observeAll (samples.map (·.voltage)) := by
    rw [hv.loop, hu.loop]
  have hoffsets : settings.offsetsOn (samples.map (·.voltage)) =
      (startLoop settings).offsets (samples.map (·.voltage)) := by
    rw [MeterSettings.offsetsOn, FrequencyLoop.offsets, hstart]
  have hlast : (settings.offsetsOn (samples.map (·.voltage))).getLast? =
      some q.board.totals.frequencyOffset := by
    rw [hoffsets, FrequencyLoop.getLast?_offsets, hv.offset, hloop]
  constructor
  · constructor
    · exact hloop
    · exact hv.offset
    · rw [← hv.offset]
      apply FrequencyLoop.offsets_le hstart_le (samples.map (·.voltage))
      rw [← hoffsets]
      exact List.mem_of_getLast? hlast
    · exact hlast
    · refine ⟨(settings.offsetsOn (samples.map (·.voltage))).map fun offset =>
        p.voltage.clock.countdown (MainsOffset.period offset), ?_, ?_⟩
      · rw [htimer, TimerLink.calls_foldl, List.flatMap_map]
        rfl
      · rw [List.map_map]
        exact List.map_congr_left fun offset _ => toNat_countdown_period hk offset
    · intro ht
      apply corrections_of_isChain hk ht
      rw [hoffsets]
      exact FrequencyLoop.isChain_offsets _ _
    · intro timer ht
      rw [htimer, TimerLink.soft_foldl] at ht
      obtain ⟨first, hfirst, rfl⟩ := Option.map_eq_some_iff.mp ht
      exact softTimer_reloaded hk (hsoft first hfirst) hlast
  · rw [htimer, hbuilt, TimerLink.soft_foldl, TimerLink.soft_foldl, Option.isSome_map,
      Option.isSome_map]

/-- At every moment of every run of a meter the timer, the frequency loop and the published offset
agree, and a software timer behind the link stays there. -/
theorem timer_in_step {settings : MeterSettings} {p : Pipeline} (hp : p.BuiltFrom settings)
    (steps : List Step) :
    TimerInStep settings ((samplesHandled .voltage (p.events steps)).map (·.voltage))
        (p.run steps).2 ∧
      (p.run steps).2.board.timer.soft.isSome = p.board.timer.soft.isSome :=
  timerInStep_of_followed hp (voltageFollowed_run hp.unused steps)

/-- A half-cycle that is too long and one that is far too short, the voltages taken from the queue
and past it. -/
def unsteadySteps : List Step :=
  .appendScript ([-5, 0, 5, 0, 5, 0, 5, 0].map .done) ::
    (List.replicate 2 [.interrupt, .interrupt, .drain .current, .drain .voltage]).flatten ++
    List.replicate 7 (.hand .voltage ⟨5, 0⟩) ++
    [.hand .voltage ⟨-5, 0⟩, .setHour 3, .hand .voltage ⟨5, 0⟩, .hand .voltage ⟨-5, 0⟩]

theorem timer_in_step_unsteady :
    softTimed.BuiltFrom {} ∧
      (TimerInStep {} ((samplesHandled .voltage (softTimed.events unsteadySteps)).map (·.voltage))
          (softTimed.run unsteadySteps).2 ∧
        (softTimed.run unsteadySteps).2.board.timer.soft.isSome =
          softTimed.board.timer.soft.isSome) ∧
      MeterSettings.offsetsOn {}
        ((samplesHandled .voltage (softTimed.events unsteadySteps)).map (·.voltage)) =
          [25, 26, 25] ∧
      (softTimed.run unsteadySteps).2.board.timer.calls =
        #[.disable, .load 62499, .enable, .disable, .load 62624, .enable,
          .disable, .load 62499, .enable] :=
  ⟨builtFrom_softTimed, timer_in_step builtFrom_softTimed unsteadySteps, by decide +kernel,
    by decide +kernel⟩

end EnergyMeter
