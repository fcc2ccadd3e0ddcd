import EnergyMeter.Proofs.CycleBook

/-!
# No word of a cycle overflows

A cycle is summed and billed in words, but nothing in it goes around or is cut short: sixteen
full-scale products fit the running sum, the power times a hundred fits a double word, and no
time scale and no rate takes energy and cost to the largest word. Plan, hour, time scale and
totals may be different at every sample; the bill depends on those found by the last. Only the
totals since power-on saturate.
-/
namespace EnergyMeter

/-- The product of two RMS values in 256ths is exact. -/
theorem toNat_apparent (voltageRms currentRms : UInt16) :
    ((voltageRms.toUInt64 * currentRms.toUInt64) <<< 8).toNat =
      256 * voltageRms.toNat * currentRms.toNat := by
  have hv : voltageRms.toNat ≤ 2 ^ 16 - 1 := Nat.le_sub_one_of_lt voltageRms.toNat_lt
  have hc : currentRms.toNat ≤ 2 ^ 16 - 1 := Nat.le_sub_one_of_lt currentRms.toNat_lt
  have hp : voltageRms.toNat * currentRms.toNat ≤ (2 ^ 16 - 1) * (2 ^ 16 - 1) :=
    Nat.mul_le_mul hv hc
  have hm : (voltageRms.toUInt64 * currentRms.toUInt64).toNat =
      voltageRms.toNat * currentRms.toNat := by
    rw [UInt64.toNat_mul, UInt16.toNat_toUInt64, UInt16.toNat_toUInt64]
    exact Nat.mod_eq_of_lt (by omega)
  have hs : (8 : UInt64).toNat % 64 = 8 := rfl
  rw [UInt64.toNat_shiftLeft, hm, hs, Nat.shiftLeft_eq, Nat.mul_assoc 256]
  omega

theorem toNat_powerFactorOf (averagePower : UInt32) (voltageRms currentRms : UInt16) :
    (CycleBill.powerFactorOf averagePower voltageRms currentRms).toNat =
      if 0 < averagePower then
        min 256 (256 * voltageRms.toNat * currentRms.toNat / averagePower.toNat)
      else 0 := by
  have hbound : CycleBill.factorBound.toNat = 256 := rfl
  unfold CycleBill.powerFactorOf
  by_cases hzero : averagePower = 0
  · rw [if_pos hzero, hzero]
    rfl
  · have hpos : 0 < averagePower := UInt32.pos_iff_ne_zero.mpr hzero
    rw [if_neg hzero, if_pos hpos, UInt16.toNat_min, Words.toNat_clamp16, hbound,
      UInt64.toNat_div, toNat_apparent, UInt32.toNat_toUInt64]
    omega

/-- What the cycle meter is handed, and what it finds at that moment. -/
structure CycleInput where
  sample : Sample
  active : ActivePlan
  hour : UInt8
  scale : TimeScale
  totals : Totals

/-- The rate of the plan at the hour, and the time scale. -/
def CycleInput.terms (input : CycleInput) : BillingTerms :=
  ⟨input.active.rate input.hour, input.scale⟩

namespace CycleMeter

/-- No sample is in the sum, as after power-on and after each cycle. -/
structure AtStart (meter : CycleMeter) : Prop where
  sum : meter.sum = 0
  count : meter.count = 0

/-- The meter holds these samples of a cycle. -/
structure Holds (meter : CycleMeter) (samples : List Sample) : Prop where
  sum : meter.sum.toInt = productSum samples
  count : meter.count.toNat = samples.length

/-- Hands an input to the meter. -/
def take (meter : CycleMeter) (input : CycleInput) : CycleProgress :=
  (meter.add input.terms input.totals input.sample).value

/-- Hands inputs to the meter in turn: the bill of each, if it closed a cycle, and the meter
that they leave. -/
def takeAll (meter : CycleMeter) : List CycleInput → List (Option CycleBill) × CycleMeter
  | [] => ([], meter)
  | first :: rest =>
    let progress := meter.take first
    let (bills, meter) := progress.meter.takeAll rest
    (progress.bill :: bills, meter)

theorem AtStart.holds {meter : CycleMeter} (h : meter.AtStart) : meter.Holds [] := by
  constructor
  · rw [h.sum]; rfl
  · rw [h.count]; rfl

theorem take_open {meter : CycleMeter} {samples : List Sample} (h : meter.Holds samples)
    (hl : samples.length + 1 < 16) (input : CycleInput) :
    (meter.take input).bill = none ∧ (meter.take input).meter.Holds (samples ++ [input.sample]) := by
  have hcount : meter.count.toNat + 1 < 16 := by rw [h.count]; exact hl
  have hadd := add_open hcount input.terms input.totals input.sample
  have hone : (1 : UInt8).toNat = 1 := rfl
  rw [take, hadd]
  refine ⟨rfl, toInt_add_product h.sum (by omega) input.sample, ?_⟩
  simp only [UInt8.toNat_add, h.count, hone, List.length_append, List.length_singleton]
  exact Nat.mod_eq_of_lt (by omega)

/-- Fewer inputs than a cycle has samples close none. -/
theorem takeAll_open {meter : CycleMeter} {samples : List Sample} (h : meter.Holds samples)
    {inputs : List CycleInput} (hl : samples.length + inputs.length < 16) :
    (meter.takeAll inputs).1 = List.replicate inputs.length none ∧
      (meter.takeAll inputs).2.Holds (samples ++ inputs.map (·.sample)) := by
  induction inputs generalizing meter samples with
  | nil =>
    rw [List.map_nil, List.append_nil]
    exact ⟨rfl, h⟩
  | cons first rest ih =>
    rw [List.length_cons] at hl
    obtain ⟨hbill, hfirst⟩ := take_open h (by omega) first
    obtain ⟨hbills, hrest⟩ := ih hfirst (by rw [List.length_append, List.length_singleton]; omega)
    rw [List.append_assoc] at hrest
    refine ⟨?_, hrest⟩
    rw [List.length_cons, List.replicate_succ, ← hbills, ← hbill]
    rfl

/-- From the start of a cycle the meter holds what it was handed. -/
theorem AtStart.takeAll {start : CycleMeter} (h : start.AtStart) {inputs : List CycleInput}
    (hl : inputs.length < 16) :
    (start.takeAll inputs).1 = List.replicate inputs.length none ∧
      (start.takeAll inputs).2.Holds (inputs.map (·.sample)) := by
  have hopen : ([] : List Sample).length + inputs.length < 16 := by
    rw [List.length_nil, Nat.zero_add]
    exact hl
  have hheld := takeAll_open h.holds hopen
  rw [List.nil_append] at hheld
  exact hheld

end CycleMeter

/-- Adding a sample to a cycle is exact: the product, the sum and the count. -/
structure AddsExactly (meter : CycleMeter) (sample : Sample) : Prop where
  product : (CycleMeter.product sample).toInt = sample.voltage.toInt * sample.current.toInt
  sum : (meter.sum + CycleMeter.product sample).toInt =
    meter.sum.toInt + sample.voltage.toInt * sample.current.toInt
  count : (meter.count + 1).toNat = meter.count.toNat + 1

theorem addsExactly_of_holds {meter : CycleMeter} {samples : List Sample} (h : meter.Holds samples)
    (hl : samples.length < 16) (sample : Sample) : AddsExactly meter sample := by
  have hone : (1 : UInt8).toNat = 1 := rfl
  constructor
  · exact toInt_product sample
  · rw [toInt_add_product h.sum hl, productSum_append, ← h.sum]
    simp [productSum, Sample.product]
  · rw [UInt8.toNat_add, h.count, hone]
    exact Nat.mod_eq_of_lt (by omega)

/-- The bill of a cycle in unbounded integers. No product saturates, and the average power is
never too wide for its word. -/
structure ClosesExactly (samples : List Sample) (last : CycleInput) (bill : CycleBill) :
    Prop where
  power : (bill.power.toNat : Int) = max 0 ((productSum samples + 82) / 164)
  hundredfold : (bill.power * 100).toNat = bill.power.toNat * 100
  averagePower : bill.averagePower.toNat = bill.power.toNat * 100 / 16
  averagePower_fits : bill.power.toNat * 100 / 16 < 2 ^ 32
  energy : bill.energy.toNat = bill.power.toNat * last.scale.value.toNat
  energy_fits : bill.power.toNat * last.scale.value.toNat < 2 ^ 64
  rate : bill.rate = last.active.rate last.hour
  cost : bill.cost.toNat = bill.energy.toNat / 2 ^ 16 * bill.rate.toNat / 3600000
  cost_fits : bill.energy.toNat / 2 ^ 16 * bill.rate.toNat < 2 ^ 64
  no_power : bill.averagePower = 0 ↔ bill.power = 0
  apparent_fits : 256 * last.totals.voltageRms.toNat * last.totals.currentRms.toNat < 2 ^ 64
  powerFactor : bill.powerFactor.toNat =
    if 0 < bill.averagePower then
      min 256 (256 * last.totals.voltageRms.toNat * last.totals.currentRms.toNat /
        bill.averagePower.toNat)
    else 0

theorem closesExactly_close {sum : Int64} {samples : List Sample}
    (h : sum.toInt = productSum samples) (hl : samples.length = 16) (last : CycleInput) :
    ClosesExactly samples last (CycleBill.close sum last.terms last.totals.voltageRms
      last.totals.currentRms) := by
  have hrate : last.terms.rate.toNat ≤ rateBound := rate_le last.active last.hour
  have hb := billedExactly_close h hl hrate last.totals.voltageRms last.totals.currentRms
  have hle : (CycleBill.powerOf sum).toNat ≤ powerBound := toNat_powerOf h hl ▸ powerOfSum_le hl
  have hbound : powerBound = 104755300 := rfl
  obtain ⟨-, henergy⟩ := toNat_energyOf hle last.scale
  have hv : last.totals.voltageRms.toNat ≤ 2 ^ 16 - 1 := Nat.le_sub_one_of_lt (UInt16.toNat_lt _)
  have hc : last.totals.currentRms.toNat ≤ 2 ^ 16 - 1 := Nat.le_sub_one_of_lt (UInt16.toNat_lt _)
  have happarent := Nat.mul_le_mul hv hc
  constructor
  · rw [hb.power, powerOfSum]
    omega
  · exact toNat_hundredfold hle
  · exact hb.averagePower
  · rw [← hb.averagePower]
    exact UInt32.toNat_lt _
  · exact hb.energy
  · exact henergy.trans_lt (by rw [hbound]; norm_num)
  · exact hb.rate
  · rw [hb.cost, hb.rate]
  · rw [hb.rate, hb.energy]
    exact cost_product_lt henergy hrate
  · rw [← UInt32.toNat_inj, ← UInt64.toNat_inj, hb.averagePower]
    show _ / 16 = 0 ↔ _ = 0
    omega
  · rw [Nat.mul_assoc]
    omega
  · exact toNat_powerFactorOf _ _ _

/-- What sixteen inputs do to a meter at the start of a cycle: every sum is exact on the way, the
last input closes the cycle with an exact bill, and the meter is at the start again. -/
structure CycleExact (start : CycleMeter) (inputs : List CycleInput) (last : CycleInput) :
    Prop where
  adds : ∀ before input later, inputs ++ [last] = before ++ input :: later →
    AddsExactly (start.takeAll before).2 input.sample
  bias : ((start.takeAll inputs).2.sum + CycleMeter.product last.sample +
    CycleBill.rescaleBias).toInt = productSum ((inputs ++ [last]).map (·.sample)) + 82
  unbilled : (start.takeAll inputs).1 = List.replicate 15 none
  closes : ∃ bill, ((start.takeAll inputs).2.take last).bill = some bill ∧
    ClosesExactly ((inputs ++ [last]).map (·.sample)) last bill
  restarts : ((start.takeAll inputs).2.take last).meter.AtStart

/-- Whatever sixteen samples, plan, hour, time scale and RMS values come together, the cycle is
summed and billed without a word that overflows or saturates. -/
theorem cycle_exact {start : CycleMeter} (hs : start.AtStart) {inputs : List CycleInput}
    (hl : inputs.length = 15) (last : CycleInput) : CycleExact start inputs last := by
  obtain ⟨hbills, hheld⟩ := hs.takeAll (by omega : inputs.length < 16)
  have hlength : (inputs.map (·.sample)).length = 15 := by rw [List.length_map, hl]
  have hsum := toInt_add_product hheld.sum (by omega) last.sample
  have hsamples : (inputs ++ [last]).map (·.sample) = inputs.map (·.sample) ++ [last.sample] :=
    List.map_append
  have hsixteen : ((inputs ++ [last]).map (·.sample)).length = 16 := by
    rw [List.length_map, List.length_append, hl, List.length_singleton]
  rw [← hsamples] at hsum
  have hcount : (start.takeAll inputs).2.count.toNat + 1 = 16 := by rw [hheld.count, hlength]
  have hclose := CycleMeter.add_close hcount last.terms last.totals last.sample
  constructor
  · intro before input later heq
    have hshort : before.length < 16 := by
      have h := congrArg List.length heq
      rw [List.length_append, List.length_append, hl] at h
      simp only [List.length_cons, List.length_nil] at h
      omega
    obtain ⟨-, hbefore⟩ := hs.takeAll hshort
    exact addsExactly_of_holds hbefore (by rw [List.length_map]; exact hshort) input.sample
  · exact toInt_add_bias hsum hsixteen
  · rw [hbills, hl]
  · refine ⟨_, by rw [CycleMeter.take, hclose], ?_⟩
    exact closesExactly_close hsum hsixteen last
  · rw [CycleMeter.take, hclose]
    exact ⟨rfl, rfl⟩

/-- The most negative words, squared, at the largest time scale in the hour of the highest rate. -/
def fullScale : CycleInput where
  sample := ⟨-32768, -32768⟩
  active := ⟨some .timeOfUse⟩
  hour := 15
  scale := ⟨4294967295⟩
  totals := { voltageRms := 65535, currentRms := 5000 }

theorem cycle_exact_fullScale :
    (({} : CycleMeter).AtStart ∧ (List.replicate 15 fullScale).length = 15) ∧
      ((CycleMeter.takeAll {} (List.replicate 15 fullScale)).2.take fullScale).bill =
        some {
          power := 104755300
          averagePower := 654720625
          energy := 449920587477913500
          cost := 2778884593661
          rate := 1457193
          powerFactor := 128 } ∧
      CycleExact {} (List.replicate 15 fullScale) fullScale :=
  ⟨⟨⟨rfl, rfl⟩, by decide⟩, by decide +kernel, cycle_exact ⟨rfl, rfl⟩ (by decide) fullScale⟩

end EnergyMeter
