import EnergyMeter.Proofs.CycleBook
import EnergyMeter.Proofs.Rounds
import EnergyMeter.Proofs.WindowContents

/-!
# Windows and cycles in lockstep

When every interrupt is followed by one serving of each consumer, the two windows and the cycle
meter have seen the same pairs at every moment, whatever reads fail in between. The meter closes
a cycle with each sixteenth pair, and then both windows hold the samples of exactly that cycle.
-/
namespace EnergyMeter

open Pipeline (usual)

/-- The last samples of a list, oldest first. -/
def lastSamples (n : Nat) (samples : List Sample) : List Sample :=
  samples.drop (samples.length - n)

@[simp] theorem lastSamples_zero (samples : List Sample) : lastSamples 0 samples = [] :=
  List.drop_length

@[simp] theorem lastSamples_snoc (n : Nat) (samples : List Sample) (sample : Sample) :
    lastSamples (n + 1) (samples ++ [sample]) = lastSamples n samples ++ [sample] := by
  rw [lastSamples, List.length_append, List.length_singleton, Nat.add_sub_add_right,
    List.drop_append_of_le_length (Nat.sub_le _ _)]
  rfl

theorem length_lastSamples {n : Nat} {samples : List Sample} (h : n ≤ samples.length) :
    (lastSamples n samples).length = n := by
  rw [lastSamples, List.length_drop]
  omega

namespace Pipeline

theorem handleEach_rms (p : Pipeline) (sample : Sample) :
    (p.handleEach sample).2.voltage.rms = (p.voltage.rms.push sample.voltage).value ∧
      (p.handleEach sample).2.current.rms = (p.current.rms.push sample.current).value :=
  ⟨rfl, handleCurrent_rms (p.handleVoltage sample.voltage) sample⟩

/-- The cycle meter has room, so the current stage loses nothing. -/
theorem handleEach_overruns {p : Pipeline} (hq : p.queues = {}) (sample : Sample) :
    (p.handleEach sample).2.current.overruns = p.current.overruns := by
  have hloss : (p.handleVoltage sample.voltage).queues.cycle.loss = 0 := by
    show p.queues.cycle.loss = 0
    rw [hq]
    rfl
  have ho := (p.handleVoltage sample.voltage).handleCurrent_overruns sample
  have hlt := p.current.overruns.toNat_lt
  apply UInt32.toNat_inj.mp
  rw [hloss, Nat.add_zero] at ho
  exact ho.trans (Nat.min_eq_left (Nat.le_sub_one_of_lt hlt))

/-- The RMS values of both channels are published before the cycle meter bills. -/
theorem handleEach_published (p : Pipeline) (sample : Sample) :
    (p.handleEach sample).2.board.totals.voltageRms = (p.handleEach sample).2.voltage.rms.rms ∧
      (p.handleEach sample).2.board.totals.currentRms =
        (p.handleEach sample).2.current.rms.rms := by
  have hr := handleCycle_readings
    { (p.handleVoltage sample.voltage).handleCurrent sample with queues := {} } sample
  have hc := (p.handleVoltage sample.voltage).handleCurrent_totals sample
  have hv := p.handleVoltage_totals sample.voltage
  constructor
  · refine hr.voltageRms.trans ?_
    show ((p.handleVoltage sample.voltage).handleCurrent sample).board.totals.voltageRms = _
    rw [hc, hv]
    rfl
  · refine hr.currentRms.trans ?_
    show ((p.handleVoltage sample.voltage).handleCurrent sample).board.totals.currentRms = _
    rw [hc]
    rfl

/-- A cycle that has room for more takes the pair and is not billed. -/
theorem handleEach_open {p : Pipeline} (h : p.cycle.count.toNat + 1 < 16) (sample : Sample) :
    (p.handleEach sample).1 = none ∧
      (p.handleEach sample).2.cycle.count.toNat = p.cycle.count.toNat + 1 ∧
      (p.handleEach sample).2.cycle.sum = p.cycle.sum + CycleMeter.product sample := by
  have ha := CycleMeter.add_open h p.terms
    ((p.handleVoltage sample.voltage).handleCurrent sample).board.totals sample
  refine ⟨congrArg (·.bill) ha, ?_, congrArg (·.meter.sum) ha⟩
  refine (congrArg (·.meter.count.toNat) ha).trans ?_
  show (p.cycle.count + 1).toNat = _
  rw [UInt8.toNat_add]
  exact Nat.mod_eq_of_lt (by change p.cycle.count.toNat + 1 < 256; omega)

/-- The sixteenth pair of a cycle closes it, with the RMS values that this pair left. -/
theorem handleEach_close {p : Pipeline} (h : p.cycle.count.toNat + 1 = 16) (sample : Sample) :
    (p.handleEach sample).1 = some (CycleBill.close (p.cycle.sum + CycleMeter.product sample)
        p.terms (p.handleEach sample).2.board.totals.voltageRms
        (p.handleEach sample).2.board.totals.currentRms) ∧
      (p.handleEach sample).2.cycle.count = 0 ∧ (p.handleEach sample).2.cycle.sum = 0 := by
  have ha := CycleMeter.add_close h p.terms
    ((p.handleVoltage sample.voltage).handleCurrent sample).board.totals sample
  have hr := handleCycle_readings
    { (p.handleVoltage sample.voltage).handleCurrent sample with queues := {} } sample
  refine ⟨?_, congrArg (·.meter.count) ha, congrArg (·.meter.sum) ha⟩
  have hv : (p.handleEach sample).2.board.totals.voltageRms = _ := hr.voltageRms
  have hc : (p.handleEach sample).2.board.totals.currentRms = _ := hr.currentRms
  rw [hv, hc]
  exact congrArg (·.bill) ha

end Pipeline

/-- Nothing waits and nothing was lost; both windows and the cycle in progress have seen these
pairs. -/
structure InPhase (settings : MeterSettings) (pairs : List Sample) (p : Pipeline) : Prop where
  queues : p.queues = {}
  intake : p.intake.overruns = 0
  stage : p.current.overruns = 0
  voltage : p.voltage.rms =
    (RunningRms.ofRatio settings.voltageRatio).pushAll (pairs.map (·.voltage))
  current : p.current.rms =
    (RunningRms.ofRatio settings.currentRatio).pushAll (pairs.map (·.current))
  count : p.cycle.count.toNat = pairs.length % 16
  sum : p.cycle.sum.toInt = productSum (lastSamples (pairs.length % 16) pairs)

/-- The sixteen pairs of a closed cycle, as its bill, the two windows and the power factor have
them. -/
structure AlignedCycle (pairs : List Sample) (terms : BillingTerms) (bill : CycleBill)
    (p : Pipeline) : Prop where
  length : pairs.length = 16
  billed : BilledExactly pairs terms bill
  voltage_window : p.voltage.rms.window.toList = pairs.map fun pair => scaledSquare pair.voltage
  current_window : p.current.rms.window.toList = pairs.map fun pair => scaledSquare pair.current
  published_voltage : p.board.totals.voltageRms = p.voltage.rms.rms
  published_current : p.board.totals.currentRms = p.current.rms.rms
  powerFactor : bill.powerFactor = CycleBill.powerFactorOf bill.averagePower
    p.board.totals.voltageRms p.board.totals.currentRms

/-- What one more round does to a meter that has read these pairs. -/
structure LockstepRound (pairs : List Sample) (p : Pipeline) : Prop where
  queues : p.round.2.queues = {}
  intake : p.round.2.intake.overruns = 0
  stage : p.round.2.current.overruns = 0
  failed : ∀ fault, p.round.1.1 = .error fault → p.round.1.2 = .idle ∧
    p.round.2.voltage = p.voltage ∧ p.round.2.current = p.current ∧
    p.round.2.cycle = p.cycle ∧ p.round.2.board.totals = p.board.totals ∧
    p.round.2.board.timer = p.board.timer
  read : ∀ pair, p.round.1.1 = .ok pair → ∃ bill,
    p.round.1.2 = ⟨.handled pair none, .handled pair none, .handled pair bill⟩ ∧
    (bill.isSome ↔ (pairs.length + 1) % 16 = 0)
  closed : ∀ pair bill, p.round.1.2.cycle = .handled pair (some bill) →
    AlignedCycle (lastSamples 16 (pairs ++ [pair])) p.terms bill p.round.2

section

variable {settings : MeterSettings} {pairs : List Sample} {p : Pipeline}

theorem inPhase_unused (h : p.Unused settings) : InPhase settings [] p := by
  constructor
  · exact h.queues
  · exact h.overruns
  · rw [h.current]
  · exact h.voltage_rms
  · rw [h.current]
    rfl
  · rw [h.cycle]
    rfl
  · rw [h.cycle]
    rfl

/-- A failed interrupt changes nothing that is in phase. -/
theorem InPhase.failed (h : InPhase settings pairs p) {fault : Fault}
    (hr : p.interrupt.1 = .error fault) : InPhase settings pairs p.interrupt.2 := by
  obtain ⟨hq, ho⟩ := Pipeline.interrupt_error hr
  exact ⟨hq.trans h.queues, ho.trans h.intake, h.stage, h.voltage, h.current, h.count, h.sum⟩

/-- What an interrupt that reads a pair leaves once the queues are taken out. -/
theorem InPhase.taken (h : InPhase settings pairs p) {pair : Sample}
    (hr : p.interrupt.1 = .ok pair) :
    InPhase settings pairs { p.interrupt.2 with queues := {} } := by
  have ho := (Pipeline.interrupt_ok hr).2
  rw [h.queues, h.intake] at ho
  exact ⟨rfl, UInt32.toNat_inj.mp ho, h.stage, h.voltage, h.current, h.count, h.sum⟩

theorem InPhase.handleEach (h : InPhase settings pairs p) (pair : Sample) :
    InPhase settings (pairs ++ [pair]) (p.handleEach pair).2 := by
  obtain ⟨hv, hc⟩ := p.handleEach_rms pair
  have hlen : (pairs ++ [pair]).length = pairs.length + 1 := by
    rw [List.length_append, List.length_singleton]
  have hcount := h.count
  constructor
  · rfl
  · exact h.intake
  · rw [Pipeline.handleEach_overruns h.queues]
    exact h.stage
  · simp [hv, h.voltage]
  · simp [hc, h.current]
  · by_cases hopen : p.cycle.count.toNat + 1 < 16
    · rw [(Pipeline.handleEach_open hopen pair).2.1, hlen]
      omega
    · rw [(Pipeline.handleEach_close (by omega) pair).2.1, hlen]
      show 0 = _
      omega
  · by_cases hopen : p.cycle.count.toNat + 1 < 16
    · have hnext : (pairs.length + 1) % 16 = pairs.length % 16 + 1 := by omega
      have hshort : (lastSamples (pairs.length % 16) pairs).length < 16 := by
        rw [length_lastSamples (Nat.mod_le _ _)]
        omega
      rw [(Pipeline.handleEach_open hopen pair).2.2, hlen, hnext, lastSamples_snoc]
      exact toInt_add_product h.sum hshort pair
    · have hnext : (pairs.length + 1) % 16 = 0 := by omega
      rw [(Pipeline.handleEach_close (by omega) pair).2.2, hlen, hnext, lastSamples_zero]
      rfl

/-- The pair that closes a cycle leaves both windows with exactly the pairs of the cycle. -/
theorem InPhase.aligned (h : InPhase settings pairs p) (pair : Sample) {bill : CycleBill}
    (hb : (p.handleEach pair).1 = some bill) :
    AlignedCycle (lastSamples 16 (pairs ++ [pair])) p.terms bill (p.handleEach pair).2 := by
  have hcount := h.count
  have hlast : p.cycle.count.toNat + 1 = 16 := by
    by_contra hne
    have hopen : p.cycle.count.toNat + 1 < 16 := by omega
    rw [(Pipeline.handleEach_open hopen pair).1] at hb
    cases hb
  have hlen : pairs.length % 16 = 15 := by omega
  have hcycle := h.sum
  rw [hlen] at hcycle
  have hfifteen : (lastSamples 15 pairs).length = 15 := length_lastSamples (by omega)
  have hsixteen : (lastSamples 16 (pairs ++ [pair])).length = 16 := by
    simp [hfifteen]
  have hsum : (p.cycle.sum + CycleMeter.product pair).toInt =
      productSum (lastSamples 16 (pairs ++ [pair])) := by
    rw [lastSamples_snoc]
    exact toInt_add_product hcycle (by omega) pair
  obtain ⟨hclose, -, -⟩ := Pipeline.handleEach_close hlast pair
  obtain rfl : _ = bill := Option.some.inj (hclose.symm.trans hb)
  have hnext := h.handleEach pair
  obtain ⟨hvoltage, hcurrent⟩ := p.handleEach_published pair
  constructor
  · exact hsixteen
  · exact billedExactly_close hsum hsixteen (rate_le p.active p.hour) _ _
  · rw [hnext.voltage, RunningRms.toList_window (by decide), List.length_map, ← List.map_drop,
      List.map_map]
    rfl
  · rw [hnext.current, RunningRms.toList_window (by decide), List.length_map, ← List.map_drop,
      List.map_map]
    rfl
  · exact hvoltage
  · exact hcurrent
  · rfl

/-- The meter bills with every sixteenth pair and with no other. -/
theorem InPhase.bills (h : InPhase settings pairs p) (pair : Sample) :
    (p.handleEach pair).1.isSome ↔ (pairs.length + 1) % 16 = 0 := by
  have hcount := h.count
  by_cases hopen : p.cycle.count.toNat + 1 < 16
  · rw [(Pipeline.handleEach_open hopen pair).1]
    constructor
    · intro hsome
      cases hsome
    · intro hlen
      omega
  · rw [(Pipeline.handleEach_close (by omega) pair).1]
    constructor
    · intro _
      omega
    · intro _
      rfl

/-- One round of a meter in phase. -/
theorem InPhase.round (h : InPhase settings pairs p) :
    InPhase settings (pairs ++ p.round.1.1.toOption.toList) p.round.2 ∧ LockstepRound pairs p := by
  cases hr : p.interrupt.1 with
  | error fault =>
    have hnext := h.failed hr
    rw [Pipeline.round_error h.queues hr]
    constructor
    · show InPhase settings (pairs ++ []) p.interrupt.2
      rw [List.append_nil]
      exact hnext
    · constructor <;> rw [Pipeline.round_error h.queues hr]
      · exact hnext.queues
      · exact hnext.intake
      · exact hnext.stage
      · intro _ _
        exact ⟨rfl, rfl, rfl, rfl, rfl, rfl⟩
      · intro pair hp
        cases hp
      · intro pair bill hp
        cases hp
  | ok pair =>
    have htaken := h.taken hr
    have hnext := htaken.handleEach pair
    rw [Pipeline.round_ok h.queues hr]
    constructor
    · exact hnext
    · constructor <;> rw [Pipeline.round_ok h.queues hr]
      · exact hnext.queues
      · exact hnext.intake
      · exact hnext.stage
      · intro fault hf
        cases hf
      · intro other ho
        obtain rfl := Except.ok.inj ho
        exact ⟨_, rfl, htaken.bills pair⟩
      · intro other bill ho
        obtain ⟨rfl, hbill⟩ := Served.handled.inj ho
        exact htaken.aligned pair hbill

/-- The pairs that so many rounds read. -/
def Pipeline.pairsOf (p : Pipeline) (n : Nat) : List Sample :=
  (p.rounds n).1.flatMap fun answer => answer.1.toOption.toList

theorem inPhase_rounds (h : InPhase settings [] p) (n : Nat) :
    InPhase settings (p.pairsOf n) (p.rounds n).2 := by
  induction n with
  | zero => exact h
  | succ n ih =>
    rw [Pipeline.pairsOf, p.rounds_snoc, List.flatMap_append]
    have hnext := ih.round.1
    simpa [Pipeline.pairsOf] using hnext

/-- After any number of rounds, one more keeps the windows, the cycle and the readings together. -/
theorem lockstep_aligned (hp : p.BuiltFrom settings) (n : Nat) :
    LockstepRound (p.pairsOf n) (p.rounds n).2 :=
  (inPhase_rounds (inPhase_unused hp.unused) n).round.2

end

/-- Sixteen pairs with a failed voltage read before the third and a failed current read before the
ninth, whose voltage is lost. -/
def faultyPairs : List Conversion :=
  (List.range 16).flatMap fun k =>
    (if k = 2 then [.failed 1] else if k = 8 then [.done 77, .failed 2] else []) ++
      [.done (Int16.ofNat (900 * k) - 7000), .busy 1, .done (Int16.ofNat (60 * k) - 400)]

/-- The usual meter with these pairs to read. -/
def faultyMeter : Pipeline := { usual with intake := .onto { script := faultyPairs } }

theorem builtFrom_faultyMeter : faultyMeter.BuiltFrom {} :=
  ⟨false, usual, rfl, faultyPairs, {}, {}, .realTime, 12, rfl⟩

/-- The eighteenth round closes the cycle of the sixteen pairs that were read. -/
theorem lockstep_aligned_faulty :
    faultyMeter.BuiltFrom {} ∧ LockstepRound (faultyMeter.pairsOf 17) (faultyMeter.rounds 17).2 ∧
      (faultyMeter.pairsOf 17).length = 15 ∧
      (faultyMeter.rounds 18).1.countP (fun answer => answer.1.toOption.isNone) = 2 ∧
      (faultyMeter.rounds 18).2.board.totals.cycles = 1 ∧
      (faultyMeter.rounds 18).2.board.totals.powerFactor = 251 :=
  ⟨builtFrom_faultyMeter, lockstep_aligned builtFrom_faultyMeter 17, by decide +kernel,
    by decide +kernel, by decide +kernel, by decide +kernel⟩

end EnergyMeter
