import EnergyMeter.Signal.RunningRms
import EnergyMeter.Proofs.Words

/-!
# Newton's method for integer roots

A truncated Newton step from any estimate but zero never lands below the root, and from above the
root it at least halves the distance. So Newton's method ends at the root, or at the root and its
successor in turn when the value lies just below a square. A cold root has enough steps to get
there for every word.
-/
namespace EnergyMeter.SquareRoot

/-- Where Newton's method ends: the root of a value rounded down, or the next number if the value
is one less than a square. -/
def Settled (value root : Nat) : Prop :=
  root = Nat.sqrt value ∨ (root = Nat.sqrt value + 1 ∧ IsSquare (value + 1))

variable {value estimate : Nat}

theorem Settled.le (h : Settled value estimate) : estimate ≤ Nat.sqrt value + 1 := by
  rcases h with rfl | ⟨rfl, -⟩
  · exact Nat.le_succ _
  · exact Nat.le_refl _

theorem Settled.ge (h : Settled value estimate) : Nat.sqrt value ≤ estimate := by
  rcases h with rfl | ⟨rfl, -⟩
  · exact Nat.le_refl _
  · exact Nat.le_succ _

/-- The mean of a divisor and the quotient is never below the root. -/
theorem sqrt_le_newtonStep (h : 0 < estimate) : Nat.sqrt value ≤ newtonStep value estimate := by
  have hroot := Nat.sqrt_le value
  have hquotient : 2 * Nat.sqrt value ≤ value / estimate + estimate := by
    rcases Nat.le_total (2 * Nat.sqrt value) estimate with hbig | hsmall
    · exact hbig.trans (Nat.le_add_left _ _)
    · obtain ⟨rest, hrest⟩ := Nat.exists_eq_add_of_le hsmall
      have hproduct := four_mul_le_sq_add rest estimate
      have hle : rest * estimate ≤ value := by nlinarith
      have := (Nat.le_div_iff_mul_le h).mpr hle
      omega
  unfold newtonStep
  omega

/-- From above the root a step at least halves the distance. -/
theorem newtonStep_le_of_lt (h : Nat.sqrt value < estimate) :
    newtonStep value estimate ≤ Nat.sqrt value + (estimate - Nat.sqrt value) / 2 := by
  have hlt : value < estimate * (Nat.sqrt value + 1) :=
    (Nat.lt_succ_sqrt value).trans_le (Nat.mul_le_mul_right _ h)
  have hquotient := Nat.div_lt_of_lt_mul hlt
  unfold newtonStep
  omega

/-- From the root a step stays, unless the next number is the root of the value's successor. -/
theorem settled_newtonStep_sqrt : Settled value (newtonStep value (Nat.sqrt value)) := by
  rcases Nat.eq_zero_or_pos value with rfl | hpos
  · exact .inl rfl
  · have hroot : 0 < Nat.sqrt value := Nat.sqrt_pos.mpr hpos
    have hge : Nat.sqrt value ≤ newtonStep value (Nat.sqrt value) := sqrt_le_newtonStep hroot
    have hlt := Nat.lt_succ_sqrt value
    rcases Nat.lt_or_ge (value + 1) ((Nat.sqrt value + 1) * (Nat.sqrt value + 1)) with hin | hlast
    · have hquotient : value / Nat.sqrt value < Nat.sqrt value + 2 := by
        apply Nat.div_lt_of_lt_mul
        nlinarith
      left
      unfold newtonStep at hge ⊢
      omega
    · have hsquare : value + 1 = (Nat.sqrt value + 1) * (Nat.sqrt value + 1) :=
        Nat.le_antisymm hlt hlast
      have hquotient : value / Nat.sqrt value < Nat.sqrt value + 3 := by
        apply Nat.div_lt_of_lt_mul
        nlinarith
      have hstep : newtonStep value (Nat.sqrt value) ≤ Nat.sqrt value + 1 := by
        unfold newtonStep
        omega
      rcases Nat.eq_or_lt_of_le hge with he | hlt
      · exact .inl he.symm
      · exact .inr ⟨by omega, _, hsquare⟩

theorem Settled.step (h : Settled value estimate) :
    Settled value (newtonStep value estimate) := by
  rcases h with rfl | ⟨rfl, -⟩
  · exact settled_newtonStep_sqrt
  · have hge : Nat.sqrt value ≤ newtonStep value (Nat.sqrt value + 1) :=
      sqrt_le_newtonStep (Nat.succ_pos _)
    have hle := newtonStep_le_of_lt (Nat.lt_succ_self (Nat.sqrt value))
    rw [Nat.succ_eq_add_one] at hle
    left
    omega

/-- A step from a seed gets to a bound or below it exactly if the value is small enough for the
distance that the seed has from the bound's successor. -/
theorem newtonStep_le_iff {seed bound : Nat} (h : 0 < seed) :
    newtonStep value seed ≤ bound ↔
      ((seed : ℤ) - (bound + 1)) ^ 2 + value < ((bound : ℤ) + 1) ^ 2 := by
  have hstep : newtonStep value seed ≤ bound ↔ value / seed + seed < 2 * bound + 2 := by
    unfold newtonStep
    omega
  have hmul : ((seed : ℤ) - (bound + 1)) ^ 2 + value < ((bound : ℤ) + 1) ^ 2 ↔
      (value : ℤ) < (2 * bound + 2 - seed) * seed := by
    constructor <;> intro hlt <;> nlinarith
  rw [hstep, hmul]
  rcases Nat.lt_or_ge (2 * bound + 2) seed with hbig | hsmall
  · constructor
    · intro hlt
      have hle := Nat.le_add_left seed (value / seed)
      omega
    · intro hlt
      have hneg : (2 * (bound : ℤ) + 2 - seed) * seed ≤ 0 :=
        mul_nonpos_of_nonpos_of_nonneg (by omega) (by omega)
      omega
  · have hcast : ((2 * bound + 2 - seed : Nat) : ℤ) = 2 * bound + 2 - seed := by omega
    rw [← hcast]
    norm_cast
    rw [← Nat.div_lt_iff_lt_mul h]
    omega

/-- Zero stays zero, so the test for it can be left out. -/
theorem newton_eq_iterate (value steps estimate : Nat) :
    newton value steps estimate = (newtonStep value)^[steps] estimate := by
  induction steps generalizing estimate with
  | zero => rfl
  | succ steps ih =>
    rw [newton, Function.iterate_succ_apply]
    split
    · next he =>
      subst he
      have hzero : (newtonStep value)^[steps] 0 = 0 :=
        Function.iterate_fixed (by simp [newtonStep]) steps
      simp only [newtonStep, Nat.div_zero, Nat.zero_add, Nat.zero_div] at *
      exact hzero.symm
    · exact ih _

theorem Settled.steps (h : Settled value estimate) (steps : Nat) :
    Settled value ((newtonStep value)^[steps] estimate) := by
  induction steps with
  | zero => exact h
  | succ steps ih =>
    rw [Function.iterate_succ_apply']
    exact ih.step

/-- As many steps settle as halve the distance to the root away. -/
theorem settled_iterate {steps : Nat} (hge : Nat.sqrt value ≤ estimate)
    (hlt : estimate < Nat.sqrt value + 2 ^ steps) :
    Settled value ((newtonStep value)^[steps] estimate) := by
  induction steps generalizing estimate with
  | zero => exact .inl (by simpa using Nat.le_antisymm (Nat.le_of_lt_succ hlt) hge)
  | succ steps ih =>
    rcases Nat.eq_or_lt_of_le hge with rfl | habove
    · exact Settled.steps (.inl rfl) _
    · have hhalf := newtonStep_le_of_lt habove
      rw [Nat.pow_succ] at hlt
      rw [Function.iterate_succ_apply]
      exact ih (sqrt_le_newtonStep (Nat.zero_lt_of_lt habove)) (by omega)

/-- The value lies between its leading bits and their successor, shifted back. -/
theorem lt_succ_coldSeed_mul (value : Nat) :
    value < (coldSeed value + 1) * 2 ^ (value.log2 - 15) := by
  rw [coldSeed, Nat.shiftRight_eq_div_pow, Nat.mul_comm]
  exact Nat.lt_mul_div_succ value (Nat.two_pow_pos _)

theorem coldSeed_lt (value : Nat) : coldSeed value < 2 ^ 16 := by
  have hbits : 2 ^ (value.log2 + 1) ≤ 2 ^ 16 * 2 ^ (value.log2 - 15) := by
    rw [← Nat.pow_add]
    exact Nat.pow_le_pow_right (by decide) (by omega)
  rw [coldSeed, Nat.shiftRight_eq_div_pow, Nat.div_lt_iff_lt_mul (Nat.two_pow_pos _)]
  exact Nat.lt_log2_self.trans_le hbits

theorem coldSeed_pos (h : 0 < value) : 0 < coldSeed value := by
  have hlog := Nat.log2_self_le (Nat.pos_iff_ne_zero.mp h)
  have hpow : 2 ^ (value.log2 - 15) ≤ 2 ^ value.log2 :=
    Nat.pow_le_pow_right (by decide) (Nat.sub_le _ _)
  rw [coldSeed, Nat.shiftRight_eq_div_pow]
  exact Nat.div_pos (hpow.trans hlog) (Nat.two_pow_pos _)

/-- The first quotient of a cold root is not much longer than the seed. -/
theorem div_coldSeed_lt (h : 0 < value) (hw : value < 2 ^ 32) :
    value / coldSeed value < 2 ^ 17 := by
  have hlog : value.log2 - 15 ≤ 16 := by
    have := (Nat.log2_lt (Nat.pos_iff_ne_zero.mp h)).mpr hw
    omega
  have hpow : 2 ^ (value.log2 - 15) ≤ 2 ^ 16 := Nat.pow_le_pow_right (by decide) hlog
  have hseed := coldSeed_pos h
  apply Nat.div_lt_of_lt_mul
  calc value < (coldSeed value + 1) * 2 ^ (value.log2 - 15) := lt_succ_coldSeed_mul value
    _ ≤ (coldSeed value + coldSeed value) * 2 ^ 16 := Nat.mul_le_mul (by omega) hpow
    _ = coldSeed value * 2 ^ 17 := by ring

theorem seedOf_zero (value : UInt32) : seedOf 0 value = coldSeed value.toNat := if_pos rfl

theorem seedOf_of_pos {estimate : UInt16} (h : 0 < estimate.toNat) (value : UInt32) :
    seedOf estimate value = estimate.toNat := by
  refine if_neg fun he => ?_
  rw [he] at h
  exact absurd h (by decide)

/-- An estimate of zero for a value of zero stands for itself too. -/
theorem seedOf_eq {estimate : UInt16} {value : UInt32}
    (h : estimate.toNat = 0 → value.toNat = 0) : seedOf estimate value = estimate.toNat := by
  rcases Nat.eq_zero_or_pos estimate.toNat with h0 | hpos
  · obtain rfl : estimate = 0 := UInt16.toNat_inj.mp h0
    rw [seedOf_zero, h h0]
    rfl
  · exact seedOf_of_pos hpos value

theorem seedOf_lt (estimate : UInt16) (value : UInt32) : seedOf estimate value < 2 ^ 16 := by
  unfold seedOf
  split
  · exact coldSeed_lt _
  · exact estimate.toNat_lt

/-- Only a value of zero is refined from a seed of zero. -/
theorem seedOf_pos {value : UInt32} (h : 0 < value.toNat) (estimate : UInt16) :
    0 < seedOf estimate value := by
  rcases Nat.eq_zero_or_pos estimate.toNat with he | he
  · obtain rfl : estimate = 0 := UInt16.toNat_inj.mp he
    rw [seedOf_zero]
    exact coldSeed_pos h
  · rw [seedOf_of_pos he]
    exact he

theorem newtonStep_lt {bound : Nat} (hv : value < bound) (he : estimate < bound) :
    newtonStep value estimate < bound := by
  have hle := Nat.div_le_self value estimate
  unfold newtonStep
  omega

theorem iterate_newtonStep_lt {bound : Nat} (hv : value < bound) (he : estimate < bound)
    (steps : Nat) : (newtonStep value)^[steps] estimate < bound := by
  induction steps with
  | zero => exact he
  | succ steps ih =>
    rw [Function.iterate_succ_apply']
    exact newtonStep_lt hv ih

theorem iterate_newtonStep_pos (hv : 0 < value) (he : 0 < estimate) (steps : Nat) :
    0 < (newtonStep value)^[steps] estimate := by
  induction steps with
  | zero => exact he
  | succ steps ih =>
    rw [Function.iterate_succ_apply']
    exact (Nat.sqrt_pos.mpr hv).trans_le (sqrt_le_newtonStep ih)

/-- No step leaves the word, so a refined root is never cut off. -/
theorem toNat_refine (estimate : UInt16) (value : UInt32) (steps : UInt8) :
    (refine estimate value steps).toNat =
      (newtonStep value.toNat)^[stepsOf steps] (seedOf estimate value) := by
  have hseed := seedOf_lt estimate value
  have hlt := iterate_newtonStep_lt value.toNat_lt (hseed.trans (by decide)) (stepsOf steps)
  rw [refine, newton_eq_iterate, Words.toNat_clamp32]
  omega

theorem toNat_warm (estimate : UInt16) (value : UInt32) :
    (warm estimate value).toNat = newtonStep value.toNat (seedOf estimate value) :=
  toNat_refine estimate value 1

theorem exists_stepsOf (steps : UInt8) : ∃ n, stepsOf steps = n + 1 := by
  apply Nat.exists_eq_succ_of_ne_zero
  unfold stepsOf
  split
  · decide
  · next h => exact fun h0 => h (UInt8.toNat_inj.mp h0)

/-- No refinement is below the root, from whatever estimate. -/
theorem sqrt_le_refine (estimate : UInt16) (value : UInt32) (steps : UInt8) :
    Nat.sqrt value.toNat ≤ (refine estimate value steps).toNat := by
  obtain ⟨n, hn⟩ := exists_stepsOf steps
  rcases Nat.eq_zero_or_pos value.toNat with h0 | hpos
  · rw [h0]
    exact Nat.zero_le _
  · rw [toNat_refine, hn, Function.iterate_succ_apply']
    exact sqrt_le_newtonStep (iterate_newtonStep_pos hpos (seedOf_pos hpos estimate) n)

/-- A cold root settles. Its first step comes within 2^24 of the root; the others halve that
away. -/
theorem settled_cold (value : UInt32) : Settled value.toNat (cold value).toNat := by
  rw [cold, toNat_refine, seedOf_zero, show stepsOf 0 = 24 + 1 from rfl,
    Function.iterate_succ_apply]
  rcases Nat.eq_zero_or_pos value.toNat with h0 | hpos
  · rw [h0]
    exact Settled.steps (.inl rfl) 24
  · have hquotient := div_coldSeed_lt hpos value.toNat_lt
    have hseed := coldSeed_lt value.toNat
    apply settled_iterate (sqrt_le_newtonStep (coldSeed_pos hpos))
    unfold newtonStep
    omega

end EnergyMeter.SquareRoot
