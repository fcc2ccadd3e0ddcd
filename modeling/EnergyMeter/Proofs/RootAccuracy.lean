import EnergyMeter.Proofs.RunningRoot

/-!
# How near one step comes to the root

After the window has filled, each sample takes a single Newton step. The step comes within one of
the root exactly if the estimate before it was close enough to the new root for its size, so a
root that moves slowly is followed for ever. One sample can move the mean too far for that: after
a silence the first sample of a load leaves the estimate many times too high.
-/
namespace EnergyMeter

namespace SquareRoot

variable {value seed : Nat}

/-- The seeds from which one step gets to the number after the root, or below it: those whose
square distance to the next number makes up no more than the value leaves room for, and zero,
which stands only for a value of zero. -/
def SeedReaches (seed value : Nat) : Prop :=
  seed = 0 ∨ ((seed : ℤ) - (Nat.sqrt value + 2)) ^ 2 + value < ((Nat.sqrt value : ℤ) + 2) ^ 2

theorem newtonStep_le_succ_sqrt_iff :
    newtonStep value seed ≤ Nat.sqrt value + 1 ↔ SeedReaches seed value := by
  rcases Nat.eq_zero_or_pos seed with rfl | hpos
  · have hzero : newtonStep value 0 = 0 := by rw [newtonStep, Nat.div_zero]
    rw [hzero]
    exact iff_of_true (Nat.zero_le _) (.inl rfl)
  · have hnext : ((Nat.sqrt value + 1 : Nat) : ℤ) + 1 = Nat.sqrt value + 2 := by
      push_cast
      ring
    rw [newtonStep_le_iff hpos, hnext]
    exact ⟨.inr, fun h => h.resolve_left (Nat.pos_iff_ne_zero.mp hpos)⟩

/-- How close a seed has to be to a root, whatever value has that root. -/
def CloseSeed (seed root : Nat) : Prop := ((seed : ℤ) - root - 2) ^ 2 < 2 * root + 4

theorem seedReaches_of_closeSeed (h : CloseSeed seed (Nat.sqrt value)) : SeedReaches seed value := by
  have hvalue := Nat.sqrt_le_add value
  unfold CloseSeed at h
  zify at hvalue
  right
  nlinarith

/-- The root stays, or moves by so little that one step catches up with it. -/
def SlowStep (before after : Nat) : Prop :=
  before = after ∨ (((before : ℤ) - after).natAbs + 2) ^ 2 < 2 * after + 4

/-- A root of zero moves slowly only if it stays zero. -/
theorem SlowStep.eq_zero {after : Nat} (h : SlowStep 0 after) : after = 0 := by
  rcases h with rfl | hsmall
  · rfl
  · have hdistance : (((0 : Nat) : ℤ) - after).natAbs = after := by omega
    rw [hdistance] at hsmall
    nlinarith

/-- From within one above the old root a step gets within one above the new root, if the root
moves slowly. -/
theorem seedReaches_of_slowStep {before : Nat} (h : SlowStep before (Nat.sqrt value))
    (hge : before ≤ seed) (hle : seed ≤ before + 1) : SeedReaches seed value := by
  rcases Nat.eq_zero_or_pos seed with h0 | hpos
  · exact .inl h0
  · apply seedReaches_of_closeSeed
    unfold CloseSeed
    rcases h with rfl | hsmall
    · obtain hroot | hnext : seed = Nat.sqrt value ∨ seed = Nat.sqrt value + 1 := by omega
      · rw [← hroot]
        nlinarith
      · rw [hnext]
        push_cast
        nlinarith
    · have hsquare : ((seed : ℤ) - Nat.sqrt value - 2) ^ 2 ≤
          ((((before : ℤ) - Nat.sqrt value).natAbs : ℤ) + 2) ^ 2 :=
        sq_le_sq' (by omega) (by omega)
      zify at hsmall
      rw [Int.natCast_natAbs] at hsquare
      exact hsquare.trans_lt hsmall

end SquareRoot

namespace RunningRms

variable {capacity : Nat}

/-- The root of the mean over the window, rounded down. -/
def root (r : RunningRms capacity) : Nat := Nat.sqrt r.mean.toNat

/-- The estimate differs from the root by one at most. -/
def NearRoot (r : RunningRms capacity) : Prop :=
  r.estimate.toNat ≤ r.root + 1 ∧ r.root ≤ r.estimate.toNat + 1

section

variable (h : 0 < capacity) {ratio : UInt32} {raws : List Int16}

include h

theorem nearRoot_iff (hl : capacity ≤ raws.length) :
    (fed capacity ratio raws).NearRoot ↔
      (fed capacity ratio raws).estimate.toNat ≤ (fed capacity ratio raws).root + 1 := by
  have hge : (fed capacity ratio raws).root ≤ (fed capacity ratio raws).estimate.toNat :=
    sqrt_mean_le_estimate h hl
  exact ⟨And.left, fun hle => ⟨hle, Nat.le_succ_of_le hge⟩⟩

/-- The cold root of a window that has just filled is near. -/
theorem nearRoot_filled (hl : raws.length = capacity) : (fed capacity ratio raws).NearRoot := by
  have hle := (SquareRoot.settled_cold (fed capacity ratio raws).mean).le
  rw [nearRoot_iff h hl.ge, estimate_fed_full h hl, Words.toNat_clamp16]
  exact (Nat.min_le_left _ _).trans hle

/-- A later sample leaves the estimate near exactly if its seed was close enough. -/
theorem nearRoot_snoc_iff (hl : capacity ≤ raws.length) (raw : Int16) :
    (fed capacity ratio (raws ++ [raw])).NearRoot ↔
      SquareRoot.SeedReaches
        (SquareRoot.seedOf (fed capacity ratio raws).estimate
          (fed capacity ratio (raws ++ [raw])).mean)
        (fed capacity ratio (raws ++ [raw])).mean.toNat := by
  have hroom := sqrt_mean_fed_le h ratio (raws ++ [raw])
  have hfull : capacity ≤ (raws ++ [raw]).length := by
    rw [List.length_append]
    omega
  rw [nearRoot_iff h hfull, (fed_steady h hl).1, refined, Words.toNat_clamp16,
    SquareRoot.toNat_warm, ← SquareRoot.newtonStep_le_succ_sqrt_iff, root]
  omega

end

/-- Every sample after the first full window moves the root slowly. -/
def SlowRoots (capacity : Nat) (ratio : UInt32) (raws : List Int16) : Prop :=
  ∀ k, capacity ≤ k → k < raws.length →
    SquareRoot.SlowStep (fed capacity ratio (raws.take k)).root
      (fed capacity ratio (raws.take (k + 1))).root

section

variable {ratio : UInt32} {raws : List Int16} {raw : Int16}

theorem SlowRoots.init (hs : SlowRoots capacity ratio (raws ++ [raw])) :
    SlowRoots capacity ratio raws := by
  intro k hk hlt
  have hslow := hs k hk (by rw [List.length_append]; omega)
  rwa [List.take_append_of_le_length (by omega), List.take_append_of_le_length (by omega)] at hslow

theorem SlowRoots.last (hs : SlowRoots capacity ratio (raws ++ [raw]))
    (hl : capacity ≤ raws.length) :
    SquareRoot.SlowStep (fed capacity ratio raws).root
      (fed capacity ratio (raws ++ [raw])).root := by
  have hslow := hs raws.length hl (by rw [List.length_append, List.length_singleton]; omega)
  rwa [List.take_left, List.take_of_length_le
    (by rw [List.length_append, List.length_singleton])] at hslow

theorem nearRoot_of_slowRoots (h : 0 < capacity) (hl : capacity ≤ raws.length)
    (hs : SlowRoots capacity ratio raws) : (fed capacity ratio raws).NearRoot := by
  induction raws using List.reverseRecOn with
  | nil => exact absurd hl (Nat.not_le.mpr h)
  | append_singleton raws raw ih =>
    rw [List.length_append, List.length_singleton] at hl
    rcases Nat.lt_or_eq_of_le hl with hlt | heq
    · have hfull : capacity ≤ raws.length := by omega
      have hnear := (nearRoot_iff h hfull).mp (ih hfull hs.init)
      have hge : (fed capacity ratio raws).root ≤ (fed capacity ratio raws).estimate.toNat :=
        sqrt_mean_le_estimate h hfull
      have hslow := hs.last hfull
      have hseed : SquareRoot.seedOf (fed capacity ratio raws).estimate
          (fed capacity ratio (raws ++ [raw])).mean =
            (fed capacity ratio raws).estimate.toNat := by
        apply SquareRoot.seedOf_eq
        intro h0
        have hzero : (fed capacity ratio raws).root = 0 := by omega
        rw [hzero] at hslow
        exact Nat.sqrt_eq_zero.mp hslow.eq_zero
      rw [nearRoot_snoc_iff h hfull, hseed]
      exact SquareRoot.seedReaches_of_slowStep hslow hge hnear
    · exact nearRoot_filled h (by rw [List.length_append, List.length_singleton, heq])

end

/-- One step for each sample keeps the estimate within one of the root exactly where its seed
reaches the root of the new mean: always when the window fills, and at every later sample as long
as the root moves slowly. -/
theorem nearRoot_iff_seedReaches (h : 0 < capacity) (ratio : UInt32) (raws : List Int16) :
    (raws.length = capacity → (fed capacity ratio raws).NearRoot) ∧
    (capacity ≤ raws.length →
      (∀ raw, (fed capacity ratio (raws ++ [raw])).NearRoot ↔
        SquareRoot.SeedReaches
          (SquareRoot.seedOf (fed capacity ratio raws).estimate
            (fed capacity ratio (raws ++ [raw])).mean)
          (fed capacity ratio (raws ++ [raw])).mean.toNat) ∧
      (SlowRoots capacity ratio raws → (fed capacity ratio raws).NearRoot)) :=
  ⟨nearRoot_filled h, fun hl => ⟨nearRoot_snoc_iff h hl, nearRoot_of_slowRoots h hl⟩⟩

/-- A steady signal whose last sample is a little larger. -/
theorem nearRoot_iff_seedReaches_steady :
    0 < 2 ∧ (fed 2 100 [1000, 1000]).NearRoot ∧
      ((fed 2 100 [1000, 1000, 1010]).NearRoot ↔ SquareRoot.SeedReaches 78 6164) ∧
      SlowRoots 2 100 [1000, 1000, 1010] ∧ (fed 2 100 [1000, 1000, 1010]).NearRoot := by
  have hslow : SlowRoots 2 100 [1000, 1000, 1010] := by
    unfold SlowRoots SquareRoot.SlowStep root
    decide +kernel
  have hseed : SquareRoot.seedOf (fed 2 100 [1000, 1000]).estimate
      (fed 2 100 [1000, 1000, 1010]).mean = 78 := by decide +kernel
  have hmean : (fed 2 100 [1000, 1000, 1010]).mean.toNat = 6164 := by decide +kernel
  obtain ⟨hfilled, hlater⟩ := nearRoot_iff_seedReaches (by decide : 0 < 2) 100 [1000, 1000]
  have hnear := (hlater (by decide)).1 1010
  rw [List.cons_append, List.cons_append, List.nil_append, hseed, hmean] at hnear
  exact ⟨by decide, hfilled rfl, hnear, hslow,
    ((nearRoot_iff_seedReaches (by decide : 0 < 2) 100 [1000, 1000, 1010]).2 (by decide)).2 hslow⟩

/-- Sixteen samples of silence, then one of a load. -/
def silenceThenLoad : List Int16 := List.replicate 16 0 ++ [1000]

/-- The cold root of the mean is nineteen, and the single step ends at ten times that. -/
theorem load_after_silence_missed :
    (fed 16 1 silenceThenLoad).mean = 381 ∧ SquareRoot.cold 381 = 19 ∧
      (fed 16 1 silenceThenLoad).estimate = 191 ∧
      ¬ ∀ (capacity : Nat) (ratio : UInt32) (raws : List Int16), 0 < capacity →
        capacity ≤ raws.length → (fed capacity ratio raws).NearRoot := by
  have hmean : (fed 16 1 silenceThenLoad).mean = 381 := by decide +kernel
  have hestimate : (fed 16 1 silenceThenLoad).estimate = 191 := by decide +kernel
  refine ⟨hmean, by decide +kernel, hestimate, fun hnear => ?_⟩
  have hle := (hnear 16 1 silenceThenLoad (by decide) (by decide)).1
  have hroot : Nat.sqrt 381 < 20 := Nat.sqrt_lt.mpr (by decide)
  rw [root, hmean, hestimate] at hle
  change 191 ≤ Nat.sqrt 381 + 1 at hle
  omega

end RunningRms

end EnergyMeter
