import EnergyMeter.Proofs.TimerInStep

/-!
# Starting is all or nothing

Both stages start with accepted settings and with no others, and the fault of refused settings
is that of the first check they violate. A refused start leaves the board as it was: no call on
the timer, no change of the totals, no record. An accepted one tunes the timer once, to the
period of the offset that was asked for, and publishes this offset and nothing else.
-/
namespace EnergyMeter

open Pipeline (startLoop)

theorem TickClock.accepts_iff (hertz : UInt32) :
    Accepts hertz ↔ ¬ (hertz.toNat = 0 ∨ 1000000000 < hertz.toNat) := by
  have hs : DesignPoint.second.toNat = 1000000000 := rfl
  have hz : hertz ≠ 0 ↔ hertz.toNat ≠ 0 := not_congr UInt32.toNat_inj.symm
  rw [Accepts, hz, UInt32.le_iff_toNat_le, hs]
  omega

namespace MeterSettings

/-- What each check refuses, and its fault, in the order of the checks. -/
def refusals (settings : MeterSettings) : List (Bool × Fault) :=
  [(settings.clockHertz.toNat = 0 ∨ 1000000000 < settings.clockHertz.toNat,
      .clockOutOfRange settings.clockHertz),
    (settings.voltageRatio.toNat = 0, .settings .zeroVoltageRatio),
    (settings.currentRatio.toNat = 0, .settings .zeroCurrentRatio),
    (50 < settings.startOffset.toNat, .settings .offsetTooHigh)]

/-- The fault of the first check that refuses the settings. -/
def firstRefusal (settings : MeterSettings) : Option Fault :=
  (settings.refusals.find? (·.1)).map (·.2)

theorem check_eq (settings : MeterSettings) :
    settings.check = settings.firstRefusal.elim (.ok ()) .error := by
  have hclock := TickClock.accepts_iff settings.clockHertz
  have hvoltage : settings.voltageRatio = 0 ↔ settings.voltageRatio.toNat = 0 :=
    UInt32.toNat_inj.symm
  have hcurrent : settings.currentRatio = 0 ↔ settings.currentRatio.toNat = 0 :=
    UInt32.toNat_inj.symm
  have hoffset : DesignPoint.offsetMax < settings.startOffset ↔ 50 < settings.startOffset.toNat :=
    UInt8.lt_iff_toNat_lt
  unfold check TickClock.ofHertz firstRefusal refusals
  by_cases h1 : settings.clockHertz.toNat = 0 ∨ 1000000000 < settings.clockHertz.toNat
  · simp [hclock, h1]
  by_cases h2 : settings.voltageRatio.toNat = 0
  · simp [hclock, hvoltage, h1, h2]
  by_cases h3 : settings.currentRatio.toNat = 0
  · simp [hclock, hvoltage, hcurrent, h1, h2, h3]
  by_cases h4 : 50 < settings.startOffset.toNat
  · simp [hclock, hvoltage, hcurrent, hoffset, h1, h2, h3, h4]
  · simp [hclock, hvoltage, hcurrent, hoffset, h1, h2, h3, h4]

theorem check_eq_error_iff (settings : MeterSettings) (fault : Fault) :
    settings.check = .error fault ↔ settings.firstRefusal = some fault := by
  rw [check_eq]
  cases settings.firstRefusal with
  | none => simp
  | some first => simp

/-- The clock is checked before the ratios, and the ratios before the offset. -/
example : ({ clockHertz := 0, currentRatio := 0 } : MeterSettings).firstRefusal =
      some (.clockOutOfRange 0) ∧
    ({ currentRatio := 0, startOffset := 51 } : MeterSettings).firstRefusal =
      some (.settings .zeroCurrentRatio) := by decide

end MeterSettings

variable {settings : MeterSettings} {fault : Fault} {clock : TickClock}

theorem VoltageStage.start_refused (h : settings.check = .error fault) (board : Board) :
    start settings board = (.error fault, board) := by
  simp only [start, h]

theorem CurrentStage.start_refused (h : settings.check = .error fault) (board : Board) :
    start settings board = (.error fault, board) := by
  simp only [start, h]

theorem CurrentStage.start_accepted (h : settings.check = .ok ()) (board : Board) :
    start settings board = (.ok { rms := .ofRatio settings.currentRatio }, board) := by
  simp only [start, h]

theorem VoltageStage.start_accepted (h : settings.check = .ok ())
    (hk : TickClock.ofHertz settings.clockHertz = .ok clock) (board : Board) :
    start settings board =
      (.ok { rms := .ofRatio settings.voltageRatio, loop := startLoop settings, clock },
        ((board.retune clock (startLoop settings).period).note
          [.samplingStarted (startLoop settings).period (startLoop settings).offset]).publish
            ({ · with frequencyOffset := (startLoop settings).offset })) := by
  simp only [start, h, hk]
  rfl

/-- The frequency loop of accepted settings is not clamped. -/
theorem startLoop_eq (h : settings.check = .ok ()) :
    startLoop settings = { expected := 7, offset := settings.startOffset } := by
  have ho := startLoop_offset h
  calc startLoop settings = { expected := 7, offset := (startLoop settings).offset } := rfl
    _ = _ := by rw [ho]

/-- What an accepted start leaves: a stage at the offset that was asked for, and a board on which
the timer was reloaded once, to the period of this offset and with the load value that it comes to
at the clock of the settings. -/
structure Started (settings : MeterSettings) (board : Board) (clock : TickClock)
    (load period : UInt32) : Prop where
  tick_eq : clock.tick.toNat = settings.tick
  load_eq : load.toNat = settings.loadAt settings.startOffset
  period_eq : period.toNat = 1187350 + 2506 * settings.startOffset.toNat
  stage : (VoltageStage.start settings board).1 =
    .ok { rms := .ofRatio settings.voltageRatio
          loop := { expected := 7, offset := settings.startOffset }
          clock }
  calls : (VoltageStage.start settings board).2.timer.calls.toList =
    board.timer.calls.toList ++ [.disable, .load load, .enable]
  soft : (VoltageStage.start settings board).2.timer.soft =
    board.timer.soft.map fun timer => { timer with load, enabled := true }
  totals : (VoltageStage.start settings board).2.totals =
    { board.totals with frequencyOffset := settings.startOffset }
  log : (VoltageStage.start settings board).2.log.toList = board.log.toList ++
    [.timerReloaded period load, .samplingStarted period settings.startOffset]
  current : CurrentStage.start settings board =
    (.ok { rms := .ofRatio settings.currentRatio }, board)

theorem started_of_accepted (h : settings.check = .ok ())
    (hk : TickClock.ofHertz settings.clockHertz = .ok clock) (board : Board) :
    Started settings board clock (clock.countdown (MainsOffset.period settings.startOffset))
      (MainsOffset.period settings.startOffset) := by
  have hstart := VoltageStage.start_accepted h hk board
  rw [startLoop_eq h] at hstart
  constructor
  · exact TickClock.tick_of_ofHertz hk
  · exact toNat_countdown_period hk settings.startOffset
  · exact MainsOffset.toNat_period settings.startOffset
  · rw [hstart]
  · rw [hstart]
    exact TimerLink.calls_foldl board.timer _
  · rw [hstart]
    exact TimerLink.soft_foldl board.timer _
  · rw [hstart]
    rfl
  · rw [hstart]
    simp only [Board.publish, Board.note, Board.retune, TimerLink.retune,
      Array.toList_appendList, List.append_assoc]
    rfl
  · exact CurrentStage.start_accepted h board

/-- What starting the two stages of a meter on a board comes to. -/
structure AllOrNothing (settings : MeterSettings) (board : Board) : Prop where
  voltage_iff :
    (∃ stage, (VoltageStage.start settings board).1 = .ok stage) ↔ settings.check = .ok ()
  current_iff :
    (∃ stage, (CurrentStage.start settings board).1 = .ok stage) ↔ settings.check = .ok ()
  first_violated : ∀ fault, settings.check = .error fault ↔ settings.firstRefusal = some fault
  refused : ∀ fault, settings.check = .error fault →
    VoltageStage.start settings board = (.error fault, board) ∧
      CurrentStage.start settings board = (.error fault, board)
  accepted : settings.check = .ok () → ∃ clock load period,
    TickClock.ofHertz settings.clockHertz = .ok clock ∧
      Started settings board clock load period

/-- Whatever the settings, and whatever happened on the board before, both stages are refused and
nothing is touched, or both start. -/
theorem start_all_or_nothing (settings : MeterSettings) (board : Board) :
    AllOrNothing settings board := by
  have hfirst := settings.check_eq_error_iff
  cases h : settings.check with
  | error fault =>
    have hv := VoltageStage.start_refused h board
    have hc := CurrentStage.start_refused h board
    refine ⟨?_, ?_, hfirst, ?_, ?_⟩
    · simp [h, hv]
    · simp [h, hc]
    · intro other ho
      obtain rfl := Except.error.inj (h.symm.trans ho)
      exact ⟨hv, hc⟩
    · intro ho
      cases h.symm.trans ho
  | ok _ =>
    obtain ⟨clock, hk⟩ := MeterSettings.exists_clock h
    have hs := started_of_accepted h hk board
    refine ⟨?_, ?_, hfirst, ?_, ?_⟩
    · simp [h, hs.stage]
    · simp [h, hs.current]
    · intro fault he
      cases h.symm.trans he
    · exact fun _ => ⟨clock, _, _, hk, hs⟩

/-- A board on which another clock was tuned and the totals were published, and the log was
begun. -/
def workedBoard : Board where
  totals := { voltage := -7, energy := 9, frequencyOffset := 3, cycles := 2 }
  timer := { calls := #[.load 5], soft := some { clock := ⟨1000, by decide⟩, load := 5 } }
  log := #[.noPlan]

/-- The usual settings start a meter on it, and settings that two of the checks refuse do not. -/
theorem start_all_or_nothing_worked :
    AllOrNothing {} workedBoard ∧
      AllOrNothing { voltageRatio := 0, startOffset := 51 } workedBoard ∧
      ((VoltageStage.start {} workedBoard).1.toOption.isSome = true ∧
        (VoltageStage.start {} workedBoard).2.timer =
          { calls := #[.load 5, .disable, .load 62499, .enable]
            soft := some { clock := ⟨1000, by decide⟩, load := 62499, enabled := true } } ∧
        (VoltageStage.start {} workedBoard).2.log =
          #[.noPlan, .timerReloaded 1250000 62499, .samplingStarted 1250000 25]) ∧
      (VoltageStage.start { voltageRatio := 0, startOffset := 51 } workedBoard).1 =
        .error (.settings .zeroVoltageRatio) :=
  ⟨start_all_or_nothing _ _, start_all_or_nothing _ _,
    ⟨by decide +kernel, by decide +kernel, by decide +kernel⟩, by decide +kernel⟩

end EnergyMeter
