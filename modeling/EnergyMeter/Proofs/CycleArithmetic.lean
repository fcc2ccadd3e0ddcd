import EnergyMeter.Billing.ActivePlan
import EnergyMeter.Proofs.Words

/-!
# The arithmetic of one cycle

Sixteen products of raw words fit a signed double word with room to spare, so the words that
a cycle is billed with stand for exact integers: the power is the rounded quotient of the sum,
the energy its product with the time scale, and the cost the energy at the rate, with the
fractions of both divisions dropped. No plan has a rate high enough for the product of energy
and rate to saturate.
-/
namespace EnergyMeter

/-- The power of a cycle, rounded to the nearest and never negative. -/
def powerOfSum (sum : Int) : Nat := ((sum + 82) / 164).toNat

/-- The largest power of a cycle. -/
def powerBound : Nat := 104755300

/-- The largest rate of a plan. -/
def rateBound : Nat := 1457193

/-- Dropping the fraction and rounding down agree once nothing is left of the negative. -/
theorem toNat_tdiv (n : Int) : (n.tdiv 164).toNat = (n / 164).toNat := by
  by_cases h : 0 ≤ n
  · rw [Int.tdiv_eq_ediv_of_nonneg h]
  · have hneg : 0 ≤ (-n).tdiv 164 := Int.tdiv_nonneg (by omega) (by omega)
    rw [Int.neg_tdiv] at hneg
    omega

theorem powerOfSum_le {samples : List Sample} (hl : samples.length = 16) :
    powerOfSum (productSum samples) ≤ powerBound := by
  have hb := productSum_bounds samples
  rw [hl] at hb
  push_cast at hb
  unfold powerOfSum powerBound
  omega

theorem toInt_add_bias {sum : Int64} {samples : List Sample} (h : sum.toInt = productSum samples)
    (hl : samples.length = 16) :
    (sum + CycleBill.rescaleBias).toInt = productSum samples + 82 := by
  have hb := productSum_bounds samples
  rw [hl] at hb
  push_cast at hb
  have hbias : CycleBill.rescaleBias.toInt = 82 := by decide
  rw [Int64.toInt_add, h, hbias]
  exact bmod_of_small (by omega) (by omega)

theorem toNat_powerOf {sum : Int64} {samples : List Sample} (h : sum.toInt = productSum samples)
    (hl : samples.length = 16) :
    (CycleBill.powerOf sum).toNat = powerOfSum (productSum samples) := by
  have hdivisor : CycleBill.rescaleDivisor.toInt = 164 := by decide
  have hadd := toInt_add_bias h hl
  have hdiv : ((sum + CycleBill.rescaleBias) / CycleBill.rescaleDivisor).toNatClampNeg =
      powerOfSum (productSum samples) := by
    rw [Int64.toNatClampNeg, Int64.toInt_div_of_ne_right _ _ (by decide), hadd, hdivisor,
      toNat_tdiv, powerOfSum]
  have hle := powerOfSum_le hl
  have hp : powerBound < 2 ^ 64 := by decide
  rw [CycleBill.powerOf, hdiv, UInt64.toNat_ofNat', Nat.mod_eq_of_lt (by omega)]

theorem toNat_hundredfold {power : UInt64} (h : power.toNat ≤ powerBound) :
    (power * 100).toNat = power.toNat * 100 := by
  have hp : powerBound * 100 < 2 ^ 34 := by decide
  rw [UInt64.toNat_mul]
  exact Nat.mod_eq_of_lt (by change power.toNat * 100 < _; omega)

theorem toNat_averagePowerOf {power : UInt64} (h : power.toNat ≤ powerBound) :
    (CycleBill.averagePowerOf power).toNat = power.toNat * 100 / 16 := by
  have hp : powerBound * 100 < 2 ^ 34 := by decide
  rw [CycleBill.averagePowerOf, Words.toNat_clamp32, UInt64.toNat_div, toNat_hundredfold h]
  show min (power.toNat * 100 / 16) _ = _
  omega

theorem toNat_energyOf {power : UInt64} (h : power.toNat ≤ powerBound) (scale : TimeScale) :
    (CycleBill.energyOf power scale).toNat = power.toNat * scale.value.toNat ∧
      power.toNat * scale.value.toNat ≤ powerBound * (2 ^ 32 - 1) := by
  have ht : scale.value.toNat ≤ 2 ^ 32 - 1 := Nat.le_sub_one_of_lt scale.value.toNat_lt
  have hle := Nat.mul_le_mul h ht
  have hp : powerBound * (2 ^ 32 - 1) < 2 ^ 64 := by decide
  refine ⟨?_, hle⟩
  rw [CycleBill.energyOf, Words.toNat_clamp64]
  omega

/-- The largest energy at the largest rate still fits a double word. -/
theorem cost_product_lt {energy rate : Nat} (he : energy ≤ powerBound * (2 ^ 32 - 1))
    (hr : rate ≤ rateBound) : energy / 2 ^ 16 * rate < 2 ^ 64 := by
  have hq : energy / 2 ^ 16 ≤ powerBound * (2 ^ 32 - 1) / 2 ^ 16 := Nat.div_le_div_right he
  have hp : powerBound * (2 ^ 32 - 1) / 2 ^ 16 * rateBound < 2 ^ 64 := by decide
  exact (Nat.mul_le_mul hq hr).trans_lt hp

theorem toNat_costOf {energy : UInt64} (he : energy.toNat ≤ powerBound * (2 ^ 32 - 1))
    {rate : UInt32} (hr : rate.toNat ≤ rateBound) :
    (CycleBill.costOf energy rate).toNat = energy.toNat / 2 ^ 16 * rate.toNat / 3600000 := by
  have hs : (energy >>> 16).toNat = energy.toNat / 2 ^ 16 := by
    simp [Nat.shiftRight_eq_div_pow]
  have hj : CycleBill.joulesPerKilowattHour.toNat = 3600000 := rfl
  have hfit := Nat.le_sub_one_of_lt (cost_product_lt he hr)
  rw [CycleBill.costOf, UInt64.toNat_div, Words.toNat_clamp64, hs, hj, Nat.min_eq_left hfit]

theorem band_rate_le (band : Band) : band.rate.toNat ≤ rateBound := by
  cases band <;> decide

theorem plan_rate_le (plan : Plan) (hour : UInt8) : (plan.rate hour).toNat ≤ rateBound := by
  cases plan with
  | timeOfUse => exact band_rate_le (Band.ofHour hour)
  | flatStandard =>
    show (112263 : UInt32).toNat ≤ rateBound
    decide
  | flatPremium =>
    show (268698 : UInt32).toNat ≤ rateBound
    decide

theorem rate_le (active : ActivePlan) (hour : UInt8) : (active.rate hour).toNat ≤ rateBound := by
  unfold ActivePlan.rate
  cases active.plan with
  | none => exact Nat.zero_le _
  | some plan => exact plan_rate_le plan hour

/-- The two divisions of a cost never overcharge, and what they drop is bounded. -/
theorem cost_rounding (energy rate : Nat) :
    energy / 2 ^ 16 * rate / 3600000 * (3600000 * 2 ^ 16) ≤ energy * rate ∧
      energy * rate <
        energy / 2 ^ 16 * rate / 3600000 * (3600000 * 2 ^ 16) + (3600000 + rate) * 2 ^ 16 := by
  have hq := Nat.div_add_mod energy (2 ^ 16)
  have hr := Nat.mod_lt energy (show 2 ^ 16 > 0 by decide)
  have hq' := Nat.div_add_mod (energy / 2 ^ 16 * rate) 3600000
  have hr' := Nat.mod_lt (energy / 2 ^ 16 * rate) (show 3600000 > 0 by decide)
  have he : energy * rate =
      2 ^ 16 * (energy / 2 ^ 16 * rate) + energy % 2 ^ 16 * rate := by
    conv_lhs => rw [← hq]
    ring
  have hm : energy % 2 ^ 16 * rate ≤ (2 ^ 16 - 1) * rate :=
    Nat.mul_le_mul_right rate (Nat.le_sub_one_of_lt hr)
  constructor
  · omega
  · omega

/-- A closed cycle is billed in exact integers. -/
structure BilledExactly (samples : List Sample) (terms : BillingTerms) (bill : CycleBill) :
    Prop where
  power : bill.power.toNat = powerOfSum (productSum samples)
  averagePower : bill.averagePower.toNat = bill.power.toNat * 100 / 16
  energy : bill.energy.toNat = bill.power.toNat * terms.scale.value.toNat
  cost : bill.cost.toNat = bill.energy.toNat / 2 ^ 16 * terms.rate.toNat / 3600000
  rate : bill.rate = terms.rate

theorem billedExactly_close {sum : Int64} {samples : List Sample}
    (h : sum.toInt = productSum samples) (hl : samples.length = 16) {terms : BillingTerms}
    (hr : terms.rate.toNat ≤ rateBound) (voltageRms currentRms : UInt16) :
    BilledExactly samples terms (CycleBill.close sum terms voltageRms currentRms) := by
  have hp := toNat_powerOf h hl
  have hle : (CycleBill.powerOf sum).toNat ≤ powerBound := hp ▸ powerOfSum_le hl
  obtain ⟨he, heb⟩ := toNat_energyOf hle terms.scale
  exact ⟨hp, toNat_averagePowerOf hle, he, toNat_costOf (he ▸ heb) hr, rfl⟩

end EnergyMeter
