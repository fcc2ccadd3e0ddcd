import EnergyMeter.Proofs.BillingTotals

/-!
# The published average power and the ratios

The RMS values are published for the line, each times the ratio that the settings give its
channel. The average power is not: whatever the settings, it is the power at the pins times a
hundred, the product of the usual ratios. So it is the power on the line if, and only if, the
ratios of the settings have that product too.
-/
namespace EnergyMeter

namespace MeterSettings

/-- The average power on the line of a cycle, in 65536ths of a watt and at most a full word: the
power at the pins times both ratios, over the samples. -/
def linePower (settings : MeterSettings) (samples : List Sample) : Nat :=
  min (2 ^ 32 - 1) (powerOfSum (productSum samples) * settings.voltageRatio.toNat *
    settings.currentRatio.toNat / 16)

/-- Every cycle of every run publishes the average power on the line. -/
def PublishesLinePower (settings : MeterSettings) : Prop :=
  ∀ p : Pipeline, p.BuiltFrom settings → ∀ steps, ∀ cycle ∈ p.closedCycles steps,
    cycle.after.averagePower.toNat = settings.linePower cycle.samples

end MeterSettings

/-- What a cycle publishes is a hundred times its power, over its samples. -/
theorem ClosedCycle.Exact.published {cycle : ClosedCycle} (h : cycle.Exact) :
    cycle.after.averagePower.toNat = powerOfSum (productSum cycle.samples) * 100 / 16 := by
  have hafter : cycle.after.averagePower = cycle.bill.averagePower := by rw [h.after]; rfl
  rw [hafter, h.bill.averagePower, h.bill.power]

theorem linePower_of_hundred {settings : MeterSettings}
    (h : settings.voltageRatio.toNat * settings.currentRatio.toNat = 100) {samples : List Sample}
    (hl : samples.length = 16) :
    settings.linePower samples = powerOfSum (productSum samples) * 100 / 16 := by
  have hle := powerOfSum_le hl
  have hbound : powerBound = 104755300 := rfl
  rw [MeterSettings.linePower, Nat.mul_assoc, h]
  omega

theorem samplesHandled_handOver (n : Nat) (sample : Sample) (p : Pipeline) :
    samplesHandled .cycle (p.events (handOver n sample)) = List.replicate n sample := by
  induction n generalizing p with
  | zero => rfl
  | succ n ih =>
    have hfirst : p.events (handOver (n + 1) sample) =
        .handled p .cycle sample ::
          (p.handle .cycle sample).2.events (handOver n sample) := rfl
    rw [hfirst, List.replicate_succ, ← ih]
    rfl

/-- Sixteen samples handed to an unbilled meter are a cycle. -/
theorem exists_closed_handOver {p : Pipeline} (h : p.Unbilled) (sample : Sample) :
    ∃ cycle ∈ p.closedCycles (handOver 16 sample), cycle.samples = List.replicate 16 sample := by
  have hb := booked_run h (handOver 16 sample)
  have hsamples := hb.samples
  rw [samplesHandled_handOver] at hsamples
  unfold Pipeline.closedCycles
  cases hc : (cycleBook (p.events (handOver 16 sample))).closed with
  | nil =>
    rw [hc] at hsamples
    have hlength := congrArg List.length hsamples
    have hshort := hb.short
    simp at hlength
    omega
  | cons first rest =>
    have hfirst := (hb.closed first (by rw [hc]; exact List.mem_cons_self)).length
    rw [hc, List.flatMap_cons, List.append_assoc] at hsamples
    refine ⟨first, List.mem_cons_self, ?_⟩
    rw [(List.append_eq_replicate_iff.mp hsamples).2.1, hfirst]

/-- Samples whose sum of products is sixteen times the divisor of the power. -/
def sixteenfold : Sample := ⟨164, 1⟩

theorem hundred_of_publishes {settings : MeterSettings} (h : settings.check = .ok ())
    (hpub : settings.PublishesLinePower) :
    settings.voltageRatio.toNat * settings.currentRatio.toNat = 100 := by
  obtain ⟨p, hp, -⟩ := Pipeline.builtFrom_of_accepted h [] {} {} .realTime 12
  obtain ⟨cycle, hm, hs⟩ := exists_closed_handOver hp.unbilled sixteenfold
  have hpower : powerOfSum (productSum cycle.samples) = 16 := by rw [hs]; decide
  have hexact := ((booked_run hp.unbilled _).closed cycle hm).published
  have hline := hpub p hp _ cycle hm
  rw [hexact, MeterSettings.linePower, hpower, Nat.mul_assoc] at hline
  omega

/-- The published average power is a hundred times the power at the pins, over the samples, for
all settings; it is the power on the line exactly if the product of the ratios is a hundred. -/
theorem publishes_line_power_iff {settings : MeterSettings} (h : settings.check = .ok ()) :
    (∀ p : Pipeline, p.BuiltFrom settings → ∀ steps, ∀ cycle ∈ p.closedCycles steps,
      cycle.after.averagePower.toNat = powerOfSum (productSum cycle.samples) * 100 / 16) ∧
    (settings.PublishesLinePower ↔
      settings.voltageRatio.toNat * settings.currentRatio.toNat = 100) := by
  have hexact : ∀ p : Pipeline, p.BuiltFrom settings → ∀ steps,
      ∀ cycle ∈ p.closedCycles steps, cycle.Exact :=
    fun p hp steps => (booked_run hp.unbilled steps).closed
  refine ⟨fun p hp steps cycle hm => (hexact p hp steps cycle hm).published,
    hundred_of_publishes h, ?_⟩
  intro hratios p hp steps cycle hm
  have hcycle := hexact p hp steps cycle hm
  rw [hcycle.published, linePower_of_hundred hratios hcycle.length]

/-- A board that divides the line voltage by twice as much as usual. -/
def doubledRatio : MeterSettings := { voltageRatio := 200 }

theorem publishes_line_power_iff_doubled :
    doubledRatio.check = .ok () ∧
      (doubledRatio.PublishesLinePower ↔
        doubledRatio.voltageRatio.toNat * doubledRatio.currentRatio.toNat = 100) :=
  ⟨rfl, (publishes_line_power_iff rfl).2⟩

/-- The meter that these settings build. -/
def doubledMeter : Pipeline :=
  (Pipeline.start doubledRatio (Pipeline.bareBoard doubledRatio false)).toOption.get rfl

theorem builtFrom_doubledMeter : doubledMeter.BuiltFrom doubledRatio :=
  ⟨false, doubledMeter, rfl, [], {}, {}, .realTime, 12, rfl⟩

/-- A sample is converted, and every consumer is served. -/
def servedRound (sample : Sample) : List Step :=
  [.appendScript [.done sample.voltage, .done sample.current], .interrupt, .serve .voltage,
    .serve .current, .serve .cycle]

def servedCycle : List Step := (List.replicate 16 (servedRound ⟨1000, 1000⟩)).flatten

/-- The voltage is published with the doubled ratio and the average power without it, so the
power factor of a steady load is cut off at one. -/
theorem doubled_ratio_missed :
    doubledRatio.check = .ok () ∧
      (doubledMeter.closedCycles servedCycle).map (fun cycle =>
          (cycle.after.voltageRms, cycle.after.currentRms, cycle.after.powerFactor,
            cycle.after.averagePower, doubledRatio.linePower cycle.samples)) =
        [(15600, 78, 256, 609756, 1219512)] ∧
      ¬ doubledRatio.PublishesLinePower := by
  have hcycles : (doubledMeter.closedCycles servedCycle).map (fun cycle =>
      (cycle.after.voltageRms, cycle.after.currentRms, cycle.after.powerFactor,
        cycle.after.averagePower, doubledRatio.linePower cycle.samples)) =
      [(15600, 78, 256, 609756, 1219512)] := by decide +kernel
  refine ⟨rfl, hcycles, fun hpub => ?_⟩
  obtain ⟨cycle, hc, he⟩ := List.map_eq_singleton_iff.mp hcycles
  have hm : cycle ∈ doubledMeter.closedCycles servedCycle := hc ▸ List.mem_cons_self
  have hline := hpub doubledMeter builtFrom_doubledMeter servedCycle cycle hm
  simp only [Prod.mk.injEq] at he
  obtain ⟨-, -, -, hpower, hwanted⟩ := he
  rw [hpower, hwanted] at hline
  exact absurd hline (by decide)

end EnergyMeter
