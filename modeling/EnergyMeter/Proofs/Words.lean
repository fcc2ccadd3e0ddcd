import EnergyMeter.Billing.Cycle
import EnergyMeter.Sampling.SampleQueue
import EnergyMeter.Timing.NominalPeriod
import Mathlib

/-!
# Words and the numbers they stand for

A word made of a number is the number itself or the largest word, whichever is smaller. The
sampling period of an offset, the scaled square of a raw word and the running sum of up to
sixteen products of raw words all fit the words that hold them, so they stand for the exact
numbers.
-/
namespace EnergyMeter

namespace Words

@[simp] theorem toNat_clamp8 (n : Nat) : (UInt8.ofNatClamp n).toNat = min n (2 ^ 8 - 1) := by
  have hs : UInt8.size = 2 ^ 8 := rfl
  by_cases h : n < UInt8.size
  · rw [UInt8.toNat_ofNatClamp_of_lt h]
    omega
  · rw [UInt8.toNat_ofNatClamp_of_le (Nat.not_lt.mp h)]
    omega

@[simp] theorem toNat_clamp16 (n : Nat) : (UInt16.ofNatClamp n).toNat = min n (2 ^ 16 - 1) := by
  have hs : UInt16.size = 2 ^ 16 := rfl
  by_cases h : n < UInt16.size
  · rw [UInt16.toNat_ofNatClamp_of_lt h]
    omega
  · rw [UInt16.toNat_ofNatClamp_of_le (Nat.not_lt.mp h)]
    omega

@[simp] theorem toNat_clamp32 (n : Nat) : (UInt32.ofNatClamp n).toNat = min n (2 ^ 32 - 1) := by
  have hs : UInt32.size = 2 ^ 32 := rfl
  by_cases h : n < UInt32.size
  · rw [UInt32.toNat_ofNatClamp_of_lt h]
    omega
  · rw [UInt32.toNat_ofNatClamp_of_le (Nat.not_lt.mp h)]
    omega

@[simp] theorem toNat_clamp64 (n : Nat) : (UInt64.ofNatClamp n).toNat = min n (2 ^ 64 - 1) := by
  have hs : UInt64.size = 2 ^ 64 := rfl
  by_cases h : n < UInt64.size
  · rw [UInt64.toNat_ofNatClamp_of_lt h]
    omega
  · rw [UInt64.toNat_ofNatClamp_of_le (Nat.not_lt.mp h)]
    omega

end Words

namespace MainsOffset

theorem toNat_period (offset : UInt8) :
    (period offset).toNat = 1187350 + 2506 * offset.toNat := by
  have ho := offset.toNat_lt
  have hf : fastestPeriod.toNat = 1187350 := rfl
  have hs : periodStep.toNat = 2506 := rfl
  rw [period, UInt32.toNat_add, UInt32.toNat_mul, UInt8.toNat_toUInt32, hf, hs]
  omega

end MainsOffset

theorem scaledSquare_le (raw : Int16) : (scaledSquare raw).toNat ≤ 6553600 := by
  have hraw : raw.toInt.natAbs ≤ 32768 := by
    have hlow := raw.le_toInt
    have hhigh := raw.toInt_lt
    omega
  have hmagnitude : (magnitude raw).toNat ≤ 32768 := by
    rw [magnitude, UInt16.toNat_ofNat']
    exact (Nat.mod_le _ _).trans hraw
  have hscaled : rawScale * (magnitude raw).toNat ≤ 655360 :=
    Nat.mul_le_mul_left rawScale hmagnitude
  rw [scaledSquare, UInt32.toNat_ofNat', Nat.shiftRight_eq_div_pow]
  exact (Nat.mod_le _ _).trans (Nat.div_le_div_right (Nat.mul_le_mul hscaled hscaled))

/-- The product of a sample's two words, as an exact integer. -/
def Sample.product (sample : Sample) : Int := sample.voltage.toInt * sample.current.toInt

def productSum (samples : List Sample) : Int := (samples.map Sample.product).sum

theorem product_bounds (sample : Sample) :
    -2 ^ 30 ≤ sample.product ∧ sample.product ≤ 2 ^ 30 := by
  have hv := sample.voltage.toInt_lt
  have hv' := sample.voltage.le_toInt
  have hc := sample.current.toInt_lt
  have hc' := sample.current.le_toInt
  unfold Sample.product
  constructor <;> nlinarith

@[simp] theorem productSum_append (samples more : List Sample) :
    productSum (samples ++ more) = productSum samples + productSum more := by
  simp only [productSum, List.map_append, List.sum_append]

theorem productSum_bounds (samples : List Sample) :
    -(samples.length * 2 ^ 30 : Int) ≤ productSum samples ∧
      productSum samples ≤ samples.length * 2 ^ 30 := by
  induction samples with
  | nil => simp [productSum]
  | cons sample rest ih =>
    have hp := product_bounds sample
    rw [productSum, List.map_cons, List.sum_cons, List.length_cons, ← productSum]
    push_cast
    omega

theorem bmod_of_small {n : Int} (h : -2 ^ 62 ≤ n) (h' : n ≤ 2 ^ 62) : n.bmod (2 ^ 64) = n := by
  apply Int.bmod_eq_of_le_mul_two <;> omega

theorem toInt_product (sample : Sample) :
    (CycleMeter.product sample).toInt = sample.product := by
  have hp := product_bounds sample
  rw [CycleMeter.product, Int64.toInt_mul, Int16.toInt_toInt64, Int16.toInt_toInt64]
  exact bmod_of_small (by rw [← Sample.product]; omega) (by rw [← Sample.product]; omega)

/-- The running sum is exact while a cycle is not longer than it should be. -/
theorem toInt_add_product {sum : Int64} {samples : List Sample} (h : sum.toInt = productSum samples)
    (hl : samples.length < 16) (sample : Sample) :
    (sum + CycleMeter.product sample).toInt = productSum (samples ++ [sample]) := by
  have hb := productSum_bounds (samples ++ [sample])
  rw [List.length_append, List.length_singleton] at hb
  push_cast at hb
  have hs : productSum [sample] = sample.product := by simp [productSum]
  rw [Int64.toInt_add, h, toInt_product, ← hs, ← productSum_append]
  exact bmod_of_small (by omega) (by omega)

end EnergyMeter
