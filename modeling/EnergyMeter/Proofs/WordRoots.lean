import EnergyMeter.Proofs.RootAccuracy

/-!
# Roots of words, cold and warm

A cold root starts from the value shifted down to sixteen bits and is right for every word. No
root, from whatever estimate, is below the true one, runs into zero or is cut off at the end. A
warm root is right exactly if its seed is close enough for the value, so the root of a mean may
serve as the seed for any mean that differs from it by at most fifteen in a thousand.
-/
namespace EnergyMeter.SquareRoot

/-- The cold seed is the value shifted right as often as it takes to fit sixteen bits. -/
theorem isLeast_shift (value : Nat) :
    IsLeast {places | value >>> places < 2 ^ 16} (value.log2 - 15) := by
  refine ⟨coldSeed_lt value, fun places hp => ?_⟩
  change value >>> places < 2 ^ 16 at hp
  rw [Nat.shiftRight_eq_div_pow, Nat.div_lt_iff_lt_mul (Nat.two_pow_pos places),
    ← Nat.pow_add] at hp
  rcases Nat.eq_zero_or_pos value with rfl | hpos
  · exact Nat.zero_le _
  · have hlog := (Nat.log2_lt (Nat.pos_iff_ne_zero.mp hpos)).mpr hp
    omega

/-- What a root does for a word. A cold one, from the shifted seed, gives the root or, just below
a square, the next number. From any estimate and in any number of steps the result is not below
the root and is not cut off, and no estimate on the way is zero unless the value is. -/
theorem refine_sound (value : UInt32) :
    (∃ places, IsLeast {places | value.toNat >>> places < 2 ^ 16} places ∧
      seedOf 0 value = value.toNat >>> places) ∧
    Settled value.toNat (refine 0 value 0).toNat ∧
    ∀ (estimate : UInt16) (steps : UInt8),
      (refine estimate value steps).toNat =
          newton value.toNat (stepsOf steps) (seedOf estimate value) ∧
        Nat.sqrt value.toNat ≤ (refine estimate value steps).toNat ∧
        (1 ≤ value.toNat → ∀ k, 0 < newton value.toNat k (seedOf estimate value)) := by
  refine ⟨⟨_, isLeast_shift _, seedOf_zero value⟩, settled_cold value, fun estimate steps => ?_⟩
  refine ⟨?_, sqrt_le_refine estimate value steps, fun hpos k => ?_⟩
  · rw [toNat_refine, newton_eq_iterate]
  · rw [newton_eq_iterate]
    exact iterate_newtonStep_pos hpos (seedOf_pos hpos estimate) k

theorem refine_sound_widest :
    1 ≤ (4294967295 : UInt32).toNat ∧ Settled 4294967295 (refine 0 4294967295 0).toNat ∧
      ∀ k, 0 < newton 4294967295 k (seedOf 1 4294967295) := by
  obtain ⟨-, hcold, hany⟩ := refine_sound 4294967295
  exact ⟨by decide, hcold, (hany 1 0).2.2 (by decide)⟩

/-- The result of a warm root is the root or the next number. -/
def Reached (value root : UInt32) : Prop :=
  root.toNat = Nat.sqrt value.toNat ∨ root.toNat = Nat.sqrt value.toNat + 1

theorem reached_cold (value : UInt32) : Reached value (cold value) :=
  (settled_cold value).imp id And.left

theorem reached_warm_iff {seed : UInt16} (h : seed ≠ 0) (value : UInt32) :
    Reached value (warm seed value) ↔ SeedReaches seed.toNat value.toNat := by
  have hseed : seedOf seed value = seed.toNat := if_neg h
  have hge := sqrt_le_refine seed value 1
  have hwarm : (warm seed value).toNat = newtonStep value.toNat seed.toNat := by
    rw [toNat_warm, hseed]
  rw [← newtonStep_le_succ_sqrt_iff, ← hwarm, Reached]
  change Nat.sqrt value.toNat ≤ (warm seed value).toNat at hge
  omega

/-- The value just below a square leaves no more room than that. -/
theorem closeSeed_of_seedReaches {seed value : Nat} (h : SeedReaches seed value) (hs : 0 < seed)
    (hlast : IsSquare (value + 1)) : CloseSeed seed (Nat.sqrt value) := by
  obtain ⟨next, hnext⟩ := hlast
  obtain ⟨root, rfl⟩ : ∃ root, next = root + 1 := by
    apply Nat.exists_eq_succ_of_ne_zero
    rintro rfl
    omega
  have hvalue : value = root * root + (root + root) := by
    rw [Nat.succ_mul_succ] at hnext
    omega
  have hroot : Nat.sqrt value = root := by rw [hvalue, Nat.sqrt_add_eq root (Nat.le_refl _)]
  have hreaches := h.resolve_left hs.ne'
  rw [hroot] at hreaches ⊢
  rw [hvalue] at hreaches
  push_cast at hreaches
  -- The squares of the root cancel, and twice the root and four more is the room that is left.
  unfold CloseSeed
  nlinarith

/-- Roots that are no further apart than those of two such means are close. -/
theorem gap_of_root {root gap : Nat} (hlow : 31 ≤ root) (hhigh : root ≤ 2560)
    (h : 985 * ((root + gap) * (root + gap)) ≤ 1000 * (root * root + root + root)) :
    (gap + 2) ^ 2 < 2 * root + 4 := by
  have hlinear : 1970 * gap ≤ 15 * root + 2000 := by
    have hpos : 0 < root := by omega
    apply Nat.le_of_mul_le_mul_left _ hpos
    nlinarith
  have hgap : gap ≤ 20 := by omega
  nlinarith

/-- A mean that moves by fifteen in a thousand at most moves its root slowly. -/
theorem slowStep_of_close {mean value : Nat} (hlow : 1000 ≤ mean) (hhigh : mean ≤ 6553600)
    (hclose : 1000 * |(value : ℤ) - mean| ≤ 15 * mean) :
    SlowStep (Nat.sqrt mean) (Nat.sqrt value) := by
  have hup : 1000 * value ≤ 1015 * mean := by
    have hle := le_abs_self ((value : ℤ) - mean)
    omega
  have hdown : 985 * mean ≤ 1000 * value := by
    have hge := neg_abs_le ((value : ℤ) - mean)
    omega
  have hmean := Nat.sqrt_le mean
  have hmean' := Nat.sqrt_le_add mean
  have hvalue := Nat.sqrt_le value
  have hvalue' := Nat.sqrt_le_add value
  have htop := RunningRms.sqrt_le_of_mean hhigh
  have hbottom : 31 ≤ Nat.sqrt mean := Nat.le_sqrt.mpr (by omega)
  have hbottom' : 31 ≤ Nat.sqrt value := Nat.le_sqrt.mpr (by omega)
  right
  rcases Nat.le_total (Nat.sqrt mean) (Nat.sqrt value) with hle | hle
  · obtain ⟨gap, hgap⟩ := Nat.exists_eq_add_of_le hle
    have hdistance : ((Nat.sqrt mean : ℤ) - Nat.sqrt value).natAbs = gap := by omega
    have hsmall : (gap + 2) ^ 2 < 2 * Nat.sqrt mean + 4 := by
      apply gap_of_root hbottom htop
      rw [← hgap]
      omega
    rw [hdistance]
    omega
  · obtain ⟨gap, hgap⟩ := Nat.exists_eq_add_of_le hle
    have hdistance : ((Nat.sqrt mean : ℤ) - Nat.sqrt value).natAbs = gap := by omega
    rw [hdistance]
    apply gap_of_root hbottom' (hle.trans htop)
    rw [← hgap]
    omega

/-- The cold root of a mean fits the word of a seed. -/
theorem toNat_seed {mean : UInt32} (h : mean.toNat ≤ 6553600) :
    (cold mean).toUInt16.toNat = (cold mean).toNat := by
  have hle := (settled_cold mean).le
  have htop := RunningRms.sqrt_le_of_mean h
  rw [UInt32.toNat_toUInt16]
  omega

/-- The cold root of a mean reaches the root of every mean that is close to it. -/
theorem reached_warm_of_close {mean value : UInt32} (hlow : 1000 ≤ mean.toNat)
    (hhigh : mean.toNat ≤ 6553600)
    (hclose : 1000 * |(value.toNat : ℤ) - mean.toNat| ≤ 15 * mean.toNat) :
    Reached value (warm (cold mean).toUInt16 value) := by
  have hsettled := settled_cold mean
  have hroot : 31 ≤ Nat.sqrt mean.toNat := Nat.le_sqrt.mpr (by omega)
  have hge := hsettled.ge
  have hseed : (cold mean).toUInt16 ≠ 0 := by
    intro h0
    have hzero := congrArg UInt16.toNat h0
    rw [toNat_seed hhigh] at hzero
    change (cold mean).toNat = 0 at hzero
    omega
  rw [reached_warm_iff hseed, toNat_seed hhigh]
  exact seedReaches_of_slowStep (slowStep_of_close hlow hhigh hclose) hge hsettled.le

/-- A seed this close to the root takes a warm root to the root or the next number, and for values
just below a square no other seed does. So the cold root of a mean is a seed for every mean that
is at most fifteen in a thousand away from it: the warm root is within one of the cold. -/
theorem warm_near (value : UInt32) :
    (∀ seed : UInt16, seed ≠ 0 → CloseSeed seed.toNat (Nat.sqrt value.toNat) →
      Reached value (warm seed value)) ∧
    (∀ seed : UInt16, seed ≠ 0 → IsSquare (value.toNat + 1) →
      Reached value (warm seed value) → CloseSeed seed.toNat (Nat.sqrt value.toNat)) ∧
    ∀ mean : UInt32, 1000 ≤ mean.toNat → mean.toNat ≤ 6553600 →
      1000 * |(value.toNat : ℤ) - mean.toNat| ≤ 15 * mean.toNat →
      |((warm (cold mean).toUInt16 value).toNat : ℤ) - (cold value).toNat| ≤ 1 := by
  refine ⟨fun seed hne hclose => ?_, fun seed hne hlast hreached => ?_,
    fun mean hlow hhigh hclose => ?_⟩
  · exact (reached_warm_iff hne value).mpr (seedReaches_of_closeSeed hclose)
  · have hpos : 0 < seed.toNat := Nat.pos_of_ne_zero fun h0 => hne (UInt16.toNat_inj.mp h0)
    exact closeSeed_of_seedReaches ((reached_warm_iff hne value).mp hreached) hpos hlast
  · have hwarm := reached_warm_of_close hlow hhigh hclose
    have hcold := reached_cold value
    unfold Reached at hwarm hcold
    rw [abs_le]
    omega

/-- The value below the square of 1000 is reached from 957 and not from 956, and the root of a
million is a seed for a mean that is fifteen in a thousand larger. -/
theorem warm_near_limits :
    (957 : UInt16) ≠ 0 ∧ CloseSeed 957 (Nat.sqrt 999999) ∧ Reached 999999 (warm 957 999999) ∧
      (956 : UInt16) ≠ 0 ∧ IsSquare (999999 + 1) ∧ ¬ Reached 999999 (warm 956 999999) ∧
      1000 ≤ (1000000 : UInt32).toNat ∧ (1000000 : UInt32).toNat ≤ 6553600 ∧
      1000 * |((1015000 : UInt32).toNat : ℤ) - (1000000 : UInt32).toNat| ≤
        15 * (1000000 : UInt32).toNat ∧
      |((warm (cold 1000000).toUInt16 1015000).toNat : ℤ) - (cold 1015000).toNat| ≤ 1 := by
  have hroot : Nat.sqrt 999999 = 999 := Nat.sqrt_add_eq (a := 1998) 999 (by decide)
  have hclose : CloseSeed 957 (Nat.sqrt 999999) := by
    rw [hroot]
    unfold CloseSeed
    decide
  have hfar : ¬ CloseSeed 956 (Nat.sqrt 999999) := by
    rw [hroot]
    unfold CloseSeed
    decide
  have hlast : IsSquare (999999 + 1) := ⟨1000, rfl⟩
  have hgrown : 1000 * |((1015000 : UInt32).toNat : ℤ) - (1000000 : UInt32).toNat| ≤
      15 * (1000000 : UInt32).toNat := by decide
  obtain ⟨hreached, honly, -⟩ := warm_near 999999
  obtain ⟨-, -, hnear⟩ := warm_near 1015000
  exact ⟨by decide, hclose, hreached 957 (by decide) hclose, by decide, hlast,
    fun h => hfar (honly 956 (by decide) hlast h), by decide, by decide, hgrown,
    hnear 1000000 (by decide) (by decide) hgrown⟩

end EnergyMeter.SquareRoot
