import EnergyMeter.Pipeline.Schedule

/-!
# A meter just built

The settings of a board are checked before anything is done with them. A meter built from
accepted settings has lost no pair, holds none, and has published nothing but the offset
that it samples at.
-/
namespace EnergyMeter

/-- Accepted settings have a clock that a timer can be tuned with. -/
theorem MeterSettings.exists_clock {settings : MeterSettings} (h : settings.check = .ok ()) :
    ∃ clock, TickClock.ofHertz settings.clockHertz = .ok clock := by
  cases hk : TickClock.ofHertz settings.clockHertz with
  | error fault => simp [check, hk] at h
  | ok clock => exact ⟨clock, rfl⟩

namespace Pipeline

/-- The frequency loop that sampling starts with. -/
def startLoop (settings : MeterSettings) : FrequencyLoop :=
  .start (UInt8.ofNat DesignPoint.cycleLength) settings.startOffset

/-- A meter just built on a bare board, whatever its converter will replay and whatever plan,
store, time scale and hour it works with. -/
def BuiltFrom (settings : MeterSettings) (p : Pipeline) : Prop :=
  ∃ soft built, start settings (bareBoard settings soft) = .ok built ∧
    ∃ script active store scale hour,
      p = { built with intake := .onto { script }, active, store, scale, hour }

/-- Starting succeeds with accepted settings only, and this is what it builds. -/
theorem start_eq_ok {settings : MeterSettings} {board : Board} {p : Pipeline}
    (h : start settings board = .ok p) :
    ∃ clock, settings.check = .ok () ∧ TickClock.ofHertz settings.clockHertz = .ok clock ∧
      p = { voltage := { rms := .ofRatio settings.voltageRatio, loop := startLoop settings, clock }
            current := { rms := .ofRatio settings.currentRatio }
            board := ((board.retune clock (startLoop settings).period).note
              [.samplingStarted (startLoop settings).period (startLoop settings).offset]).publish
                ({ · with frequencyOffset := (startLoop settings).offset }) } := by
  unfold start VoltageStage.start CurrentStage.start at h
  cases hc : settings.check with
  | error fault => simp [hc] at h
  | ok _ =>
    cases hk : TickClock.ofHertz settings.clockHertz with
    | error fault => simp [hc, hk] at h
    | ok clock =>
      simp only [hc, hk, Except.ok.injEq] at h
      exact ⟨clock, rfl, rfl, h.symm⟩

theorem BuiltFrom.accepted {settings : MeterSettings} {p : Pipeline} (h : p.BuiltFrom settings) :
    settings.check = .ok () := by
  obtain ⟨soft, built, hb, -⟩ := h
  obtain ⟨clock, hc, -⟩ := start_eq_ok hb
  exact hc

/-- Accepted settings build a meter, whatever it works with. -/
theorem builtFrom_of_accepted {settings : MeterSettings} (h : settings.check = .ok ())
    (script : List Conversion) (active : ActivePlan) (store : PlanStore) (scale : TimeScale)
    (hour : UInt8) : ∃ p : Pipeline, p.BuiltFrom settings ∧ p.intake = .onto { script } ∧
      p.active = active ∧ p.store = store ∧ p.scale = scale ∧ p.hour = hour := by
  obtain ⟨clock, hk⟩ := MeterSettings.exists_clock h
  have hb : ∃ built, start settings (bareBoard settings false) = .ok built := by
    unfold start VoltageStage.start CurrentStage.start
    simp [h, hk]
  obtain ⟨built, hb⟩ := hb
  exact ⟨{ built with intake := .onto { script }, active, store, scale, hour },
    ⟨false, built, hb, script, active, store, scale, hour, rfl⟩, rfl, rfl, rfl, rfl, rfl⟩

/-- What is known of a meter just built. -/
structure Unused (settings : MeterSettings) (p : Pipeline) : Prop where
  queues : p.queues = {}
  overruns : p.intake.overruns = 0
  voltage_rms : p.voltage.rms = .ofRatio settings.voltageRatio
  loop : p.voltage.loop = startLoop settings
  clock : TickClock.ofHertz settings.clockHertz = .ok p.voltage.clock
  current : p.current = { rms := .ofRatio settings.currentRatio }
  cycle : p.cycle = {}
  totals : p.board.totals = { frequencyOffset := (startLoop settings).offset }

theorem BuiltFrom.unused {settings : MeterSettings} {p : Pipeline} (h : p.BuiltFrom settings) :
    p.Unused settings := by
  obtain ⟨soft, built, hb, script, active, store, scale, hour, rfl⟩ := h
  obtain ⟨clock, -, hk, rfl⟩ := start_eq_ok hb
  exact ⟨rfl, rfl, rfl, rfl, hk, rfl, rfl, rfl⟩

/-- The meter that the usual settings build, without a software timer. -/
def usual : Pipeline := (start {} (bareBoard {} false)).toOption.get rfl

theorem builtFrom_usual : usual.BuiltFrom {} :=
  ⟨false, usual, rfl, [], {}, {}, .realTime, 12, rfl⟩

/-- The meter that the usual settings build onto a software timer. -/
def softTimed : Pipeline := (start {} (bareBoard {} true)).toOption.get rfl

theorem builtFrom_softTimed : softTimed.BuiltFrom {} :=
  ⟨true, softTimed, rfl, [], {}, {}, .realTime, 12, rfl⟩

end Pipeline

end EnergyMeter
