import EnergyMeter.Proofs.NewtonRoot
import EnergyMeter.Proofs.WindowSums

/-!
# The running root

The estimate of a channel, set beside the root of the mean over its window. While the window
fills there is none. The sample that fills the window takes a cold root, and each later sample
one Newton step from the estimate before it. No step lands below the root, so from then on the
estimate never does either; and while the mean stays the same the steps run on from one sample
to the next, so the estimate settles however far off it was.
-/
namespace EnergyMeter

namespace RunningRms

variable {capacity : Nat}

/-- The mean square over the window, whose root the estimate follows. -/
def mean (r : RunningRms capacity) : UInt32 := meanSquare r.window

/-- The estimate that one Newton step makes of the one before. -/
def refined (estimate : UInt16) (mean : UInt32) : UInt16 :=
  UInt16.ofNatClamp (SquareRoot.warm estimate mean).toNat

/-- The records that these samples leave. -/
def records (r : RunningRms capacity) : List Int16 → List LogRecord
  | [] => []
  | raw :: rest => (r.push raw).log ++ (r.push raw).value.records rest

@[simp] theorem pushAll_append (r : RunningRms capacity) (raws more : List Int16) :
    r.pushAll (raws ++ more) = (r.pushAll raws).pushAll more := List.foldl_append

@[simp] theorem records_append (r : RunningRms capacity) (raws more : List Int16) :
    r.records (raws ++ more) = r.records raws ++ (r.pushAll raws).records more := by
  induction raws generalizing r with
  | nil => rfl
  | cons first rest ih =>
    rw [List.cons_append, records, records, ih, List.append_assoc]
    rfl

@[simp] theorem records_snoc (r : RunningRms capacity) (raws : List Int16) (raw : Int16) :
    r.records (raws ++ [raw]) = r.records raws ++ ((r.pushAll raws).push raw).log := by
  rw [records_append, records, records, List.append_nil]

theorem toNat_rms (r : RunningRms capacity) :
    r.rms.toNat = min 65535 (r.estimate.toNat * r.ratio.toNat) := by
  simp [rms, Nat.min_comm]

section

variable {r : RunningRms capacity} {raw : Int16}

theorem mean_push (r : RunningRms capacity) (raw : Int16) :
    (r.push raw).value.mean = meanSquare (r.window.push (scaledSquare raw)) := by
  rw [mean, window_push]

theorem push_filling (h : r.window.fill = .filling)
    (hnext : (r.push raw).value.window.fill = .filling) :
    (r.push raw).value.estimate = r.estimate ∧ (r.push raw).log = [] := by
  rw [window_push] at hnext
  constructor
  · simp only [push, h, hnext]
  · simp only [push, h, hnext]

/-- The sample that fills the window takes a cold root, which is recorded. -/
theorem push_filled (h : r.window.fill = .filling)
    (hnext : (r.push raw).value.window.fill = .steady) :
    (r.push raw).value.estimate =
        UInt16.ofNatClamp (SquareRoot.cold (r.push raw).value.mean).toNat ∧
      (r.push raw).log = [.windowFull (SquareRoot.cold (r.push raw).value.mean)] := by
  rw [window_push] at hnext
  rw [mean_push]
  constructor
  · simp only [push, h, hnext]
  · simp only [push, h, hnext]

/-- Every later sample takes one step from the estimate before it, and records nothing. -/
theorem push_steady (h : r.window.fill = .steady) (raw : Int16) :
    (r.push raw).value.estimate = refined r.estimate (r.push raw).value.mean ∧
      (r.push raw).log = [] := by
  rw [mean_push]
  constructor
  · simp only [push, h, refined]
  · simp only [push, h]

end

theorem ratio_pushAll (r : RunningRms capacity) (raws : List Int16) :
    (r.pushAll raws).ratio = r.ratio := by
  induction raws using List.reverseRecOn with
  | nil => rfl
  | append_singleton raws raw ih =>
    rw [pushAll_snoc, ← ih, push]
    cases (r.pushAll raws).window.fill with
    | filling => cases ((r.pushAll raws).window.push (scaledSquare raw)).fill <;> rfl
    | steady => rfl

/-- A channel that was fed these samples from the start. -/
def fed (capacity : Nat) (ratio : UInt32) (raws : List Int16) : RunningRms capacity :=
  (ofRatio ratio).pushAll raws

/-- What the channel left in the log. -/
def fedRecords (capacity : Nat) (ratio : UInt32) (raws : List Int16) : List LogRecord :=
  (ofRatio ratio : RunningRms capacity).records raws

section

variable {ratio : UInt32} {raws : List Int16}

@[simp] theorem fed_snoc (raw : Int16) :
    fed capacity ratio (raws ++ [raw]) = ((fed capacity ratio raws).push raw).value :=
  pushAll_snoc _ raws raw

@[simp] theorem fedRecords_snoc (raw : Int16) :
    fedRecords capacity ratio (raws ++ [raw]) =
      fedRecords capacity ratio raws ++ ((fed capacity ratio raws).push raw).log :=
  records_snoc _ raws raw

theorem fed_append (more : List Int16) :
    (fed capacity ratio raws).pushAll more = fed capacity ratio (raws ++ more) :=
  (pushAll_append _ raws more).symm

theorem window_fed :
    (fed capacity ratio raws).window = RollingWindow.empty.pushAll (raws.map scaledSquare) :=
  window_pushAll _ raws

variable (h : 0 < capacity)

include h

theorem fill_fed_steady (hl : capacity ≤ raws.length) :
    (fed capacity ratio raws).window.fill = .steady := by
  rw [window_fed]
  exact (RollingWindow.fill_pushAll h _).mpr (by rwa [List.length_map])

theorem fill_fed_filling (hl : raws.length < capacity) :
    (fed capacity ratio raws).window.fill = .filling := by
  rw [window_fed]
  apply RollingWindow.fill_filling
  rw [RollingWindow.size_pushAll h, List.length_map]
  omega

/-- While the window fills there is no estimate and no record. -/
theorem fed_filling (hl : raws.length < capacity) :
    (fed capacity ratio raws).estimate = 0 ∧ fedRecords capacity ratio raws = [] := by
  induction raws using List.reverseRecOn with
  | nil => exact ⟨rfl, rfl⟩
  | append_singleton raws raw ih =>
    have hnext : (fed capacity ratio (raws ++ [raw])).window.fill = .filling :=
      fill_fed_filling h hl
    rw [List.length_append, List.length_singleton] at hl
    obtain ⟨he, hr⟩ := ih (by omega)
    rw [fed_snoc] at hnext
    obtain ⟨hestimate, hlog⟩ := push_filling (fill_fed_filling h (by omega)) hnext
    simp [hestimate, hlog, he, hr]

theorem fed_filled {raw : Int16} (hl : raws.length + 1 = capacity) :
    (fed capacity ratio (raws ++ [raw])).estimate =
        UInt16.ofNatClamp
          (SquareRoot.cold (fed capacity ratio (raws ++ [raw])).mean).toNat ∧
      fedRecords capacity ratio (raws ++ [raw]) =
        [.windowFull (SquareRoot.cold (fed capacity ratio (raws ++ [raw])).mean)] := by
  have hnext : (fed capacity ratio (raws ++ [raw])).window.fill = .steady :=
    fill_fed_steady h (by rw [List.length_append, List.length_singleton, hl])
  rw [fed_snoc] at hnext
  obtain ⟨hestimate, hlog⟩ := push_filled (fill_fed_filling h (by omega)) hnext
  rw [fed_snoc, fedRecords_snoc, hlog, (fed_filling h (by omega)).2]
  exact ⟨hestimate, rfl⟩

theorem fed_steady {raw : Int16} (hl : capacity ≤ raws.length) :
    (fed capacity ratio (raws ++ [raw])).estimate =
        refined (fed capacity ratio raws).estimate (fed capacity ratio (raws ++ [raw])).mean ∧
      fedRecords capacity ratio (raws ++ [raw]) = fedRecords capacity ratio raws := by
  have hfill : (fed capacity ratio raws).window.fill = .steady := fill_fed_steady h hl
  obtain ⟨hestimate, hlog⟩ := push_steady hfill raw
  rw [fed_snoc, fedRecords_snoc, hlog, List.append_nil]
  exact ⟨hestimate, rfl⟩

/-- The first full window has its cold root as the estimate. -/
theorem estimate_fed_full (hl : raws.length = capacity) :
    (fed capacity ratio raws).estimate =
      UInt16.ofNatClamp (SquareRoot.cold (fed capacity ratio raws).mean).toNat := by
  rcases List.eq_nil_or_concat' raws with rfl | ⟨raws, raw, rfl⟩
  · rw [List.length_nil] at hl
    exact absurd h (by omega)
  · rw [List.length_append, List.length_singleton] at hl
    exact (fed_filled h hl).1

/-- A full window has recorded one cold root, that of the sample which filled it. -/
theorem fedRecords_full (hl : capacity ≤ raws.length) :
    fedRecords capacity ratio raws =
      [.windowFull (SquareRoot.cold (fed capacity ratio (raws.take capacity)).mean)] := by
  induction raws using List.reverseRecOn with
  | nil => exact absurd hl (Nat.not_le.mpr h)
  | append_singleton raws raw ih =>
    rw [List.length_append, List.length_singleton] at hl
    rcases Nat.lt_or_eq_of_le hl with hlt | heq
    · have hfull : capacity ≤ raws.length := by omega
      rw [(fed_steady h hfull).2, ih hfull, List.take_append_of_le_length hfull]
    · rw [(fed_filled h heq.symm).2, List.take_of_length_le (by simp [heq])]

end

theorem mean_fed_le (h : 0 < capacity) (ratio : UInt32) (raws : List Int16) :
    (fed capacity ratio raws).mean.toNat ≤ 6553600 := by
  have hsums := RollingWindow.sumsUp_pushAll h (raws.map scaledSquare)
  have hlist := (RollingWindow.toList_pushAll h (raws.map scaledSquare)).2
  rw [mean, meanSquare, window_fed]
  generalize (RollingWindow.empty : RollingWindow capacity).pushAll (raws.map scaledSquare) = w at *
  rcases Nat.eq_zero_or_pos w.size with h0 | hpos
  · rw [RollingWindow.mean_of_empty h0]
    exact Nat.zero_le _
  · obtain ⟨mean, hm, hq⟩ := hsums.mean hpos
    have hwords : ∀ word ∈ w.toList, word.toNat ≤ 6553600 := by
      intro word hword
      rw [hlist] at hword
      obtain ⟨raw, -, rfl⟩ := List.mem_map.mp (List.mem_of_mem_drop hword)
      exact scaledSquare_le raw
    have hsum := (Nat.mod_le w.values.sum (2 ^ 64)).trans (RollingWindow.sum_values_le hwords)
    rw [hm, Option.getD_some, hq]
    exact Nat.div_le_of_le_mul hsum

theorem sqrt_le_of_mean {mean : Nat} (h : mean ≤ 6553600) : Nat.sqrt mean ≤ 2560 :=
  (Nat.sqrt_le_sqrt h).trans (Nat.sqrt_eq 2560).le

/-- The root of a mean leaves room in the word of an estimate. -/
theorem sqrt_mean_fed_le (h : 0 < capacity) (ratio : UInt32) (raws : List Int16) :
    Nat.sqrt (fed capacity ratio raws).mean.toNat ≤ 2560 :=
  sqrt_le_of_mean (mean_fed_le h ratio raws)

theorem sqrt_le_clamp {value : UInt32} {root : Nat} (h : Nat.sqrt value.toNat ≤ root) :
    Nat.sqrt value.toNat ≤ (UInt16.ofNatClamp root).toNat := by
  have hlt : Nat.sqrt value.toNat < 2 ^ 16 := Nat.sqrt_lt.mpr value.toNat_lt
  rw [Words.toNat_clamp16]
  omega

theorem sqrt_mean_le_estimate (h : 0 < capacity) {ratio : UInt32} {raws : List Int16}
    (hl : capacity ≤ raws.length) :
    Nat.sqrt (fed capacity ratio raws).mean.toNat ≤ (fed capacity ratio raws).estimate.toNat := by
  rcases List.eq_nil_or_concat' raws with rfl | ⟨raws, raw, rfl⟩
  · exact absurd hl (Nat.not_le.mpr h)
  · rw [List.length_append, List.length_singleton] at hl
    rcases Nat.lt_or_eq_of_le hl with hlt | heq
    · rw [(fed_steady h (by omega)).1]
      exact sqrt_le_clamp (SquareRoot.sqrt_le_refine _ _ _)
    · rw [(fed_filled h heq.symm).1]
      exact sqrt_le_clamp (SquareRoot.sqrt_le_refine _ _ _)

/-- An estimate that is not below the root is refined by one Newton step, in full. -/
theorem toNat_refined {estimate : UInt16} {mean : UInt32}
    (hge : Nat.sqrt mean.toNat ≤ estimate.toNat) (hroom : Nat.sqrt mean.toNat ≤ 2560) :
    (refined estimate mean).toNat = SquareRoot.newtonStep mean.toNat estimate.toNat := by
  have hseed : SquareRoot.seedOf estimate mean = estimate.toNat :=
    SquareRoot.seedOf_eq fun h0 => Nat.sqrt_eq_zero.mp (Nat.le_zero.mp (h0 ▸ hge))
  have hlt := estimate.toNat_lt
  have hstep : SquareRoot.newtonStep mean.toNat estimate.toNat < 2 ^ 16 := by
    rcases Nat.eq_or_lt_of_le hge with heq | habove
    · have hsettled : SquareRoot.Settled mean.toNat
          (SquareRoot.newtonStep mean.toNat estimate.toNat) := by
        rw [← heq]
        exact SquareRoot.settled_newtonStep_sqrt
      have hle := hsettled.le
      omega
    · have hle := SquareRoot.newtonStep_le_of_lt habove
      omega
  rw [refined, Words.toNat_clamp16, SquareRoot.toNat_warm, hseed]
  omega

/-- After every one of these samples the mean is the same. -/
def MeanStays (r : RunningRms capacity) (mean : UInt32) (more : List Int16) : Prop :=
  ∀ k < more.length, (r.pushAll (more.take (k + 1))).mean = mean

section

variable {r : RunningRms capacity} {mean : UInt32} {raw : Int16} {more : List Int16}

theorem MeanStays.init (hm : r.MeanStays mean (more ++ [raw])) :
    r.MeanStays mean more ∧ (r.pushAll (more ++ [raw])).mean = mean := by
  constructor
  · intro k hk
    have hstays := hm k (by rw [List.length_append]; omega)
    rwa [List.take_append_of_le_length (by omega)] at hstays
  · have hlast := hm more.length (by rw [List.length_append, List.length_singleton]; omega)
    rwa [List.take_of_length_le (by rw [List.length_append, List.length_singleton])] at hlast

theorem MeanStays.tail (hm : r.MeanStays mean (raw :: more)) :
    (r.pushAll [raw]).mean = mean ∧ (r.pushAll [raw]).MeanStays mean more := by
  constructor
  · exact hm 0 (by rw [List.length_cons]; omega)
  · intro k hk
    have hstays := hm (k + 1) (by rw [List.length_cons]; omega)
    rwa [List.take_succ_cons, ← List.singleton_append, pushAll_append] at hstays

end

section

variable (h : 0 < capacity) {ratio : UInt32} {raws more : List Int16} {mean : UInt32}

include h

/-- Samples that leave the mean as it is run Newton's method on, one step each. -/
theorem estimate_of_meanStays (hl : capacity ≤ raws.length)
    (hmean : (fed capacity ratio raws).mean = mean)
    (hm : (fed capacity ratio raws).MeanStays mean more) :
    (fed capacity ratio (raws ++ more)).mean = mean ∧
      (fed capacity ratio (raws ++ more)).estimate.toNat =
        (SquareRoot.newtonStep mean.toNat)^[more.length]
          (fed capacity ratio raws).estimate.toNat := by
  induction more using List.reverseRecOn with
  | nil =>
    rw [List.append_nil]
    exact ⟨hmean, rfl⟩
  | append_singleton more raw ih =>
    obtain ⟨hinit, hlast⟩ := hm.init
    obtain ⟨hbefore, hrun⟩ := ih hinit
    have hfull : capacity ≤ (raws ++ more).length := by
      rw [List.length_append]
      omega
    have hge : Nat.sqrt (fed capacity ratio (raws ++ more)).mean.toNat ≤
        (fed capacity ratio (raws ++ more)).estimate.toNat := sqrt_mean_le_estimate h hfull
    have hroom := sqrt_mean_fed_le h ratio (raws ++ more)
    rw [hbefore] at hge hroom
    rw [fed_append, ← List.append_assoc] at hlast
    rw [← List.append_assoc, (fed_steady h hfull).1, hlast, toNat_refined hge hroom, hrun,
      List.length_append, List.length_singleton, Function.iterate_succ_apply']
    exact ⟨rfl, rfl⟩

/-- From the seventeenth sample on that leaves the mean as it is, the estimate is settled: the
first brings it to the root or above, within a word, and sixteen halve a word away. -/
theorem settled_of_meanStays (hl : capacity ≤ raws.length)
    (hm : (fed capacity ratio raws).MeanStays mean more) (hlong : 17 ≤ more.length) :
    SquareRoot.Settled mean.toNat (fed capacity ratio (raws ++ more)).estimate.toNat := by
  cases more with
  | nil => exact absurd hlong (by decide)
  | cons raw more =>
    obtain ⟨hmean, htail⟩ := hm.tail
    rw [fed_append] at hmean htail
    have hfull : capacity ≤ (raws ++ [raw]).length := by
      rw [List.length_append]
      omega
    have hge : Nat.sqrt (fed capacity ratio (raws ++ [raw])).mean.toNat ≤
        (fed capacity ratio (raws ++ [raw])).estimate.toNat := sqrt_mean_le_estimate h hfull
    rw [hmean] at hge
    have hlt := (fed capacity ratio (raws ++ [raw])).estimate.toNat_lt
    have hpow : 2 ^ 16 ≤ 2 ^ more.length :=
      Nat.pow_le_pow_right (by decide) (Nat.le_of_succ_le_succ hlong)
    rw [← List.singleton_append, ← List.append_assoc,
      (estimate_of_meanStays h hfull hmean htail).2]
    exact SquareRoot.settled_iterate hge (by omega)

end

/-- Every sample is the one a period before it. -/
def Periodic (period : Nat) (raws : List Int16) : Prop :=
  ∀ k < raws.length - period, raws[k + period]? = raws[k]?

section

variable (h : 0 < capacity) {ratio : UInt32} {raws more : List Int16}

include h

/-- What leaves the window next is the square of the sample a window's length back. -/
theorem oldest_fed (hl : capacity ≤ raws.length) :
    raws[raws.length - capacity]?.map scaledSquare =
      some (fed capacity ratio raws).window.oldest := by
  obtain ⟨hring, hlist⟩ := RollingWindow.toList_pushAll h (raws.map scaledSquare)
  have hsize := RollingWindow.size_pushAll h (raws.map scaledSquare)
  rw [List.length_map] at hlist hsize
  have hcons := congrArg List.head? (hring.toList_eq_cons (by omega))
  rw [hlist, List.head?_drop, List.getElem?_map] at hcons
  rw [window_fed]
  exact hcons

theorem mean_fed_take_succ (hp : Periodic capacity more) {k : Nat} (hk : capacity ≤ k)
    (hlt : k < more.length) :
    (fed capacity ratio (raws ++ more.take (k + 1))).mean =
      (fed capacity ratio (raws ++ more.take k)).mean := by
  have hlength : (more.take k).length = k := List.length_take_of_le (Nat.le_of_lt hlt)
  have hfull : capacity ≤ (raws ++ more.take k).length := by
    rw [List.length_append, hlength]
    omega
  have hold : (raws ++ more.take k)[(raws ++ more.take k).length - capacity]?.map scaledSquare =
      some (fed capacity ratio (raws ++ more.take k)).window.oldest := oldest_fed h hfull
  have hback : (raws ++ more.take k)[(raws ++ more.take k).length - capacity]? = more[k]? := by
    have hperiod := hp (k - capacity) (by omega)
    rw [Nat.sub_add_cancel hk] at hperiod
    rw [List.length_append, hlength, List.getElem?_append_right (by omega), hperiod,
      List.getElem?_take_of_lt (by omega)]
    congr 1
    omega
  rw [hback, List.getElem?_eq_getElem hlt] at hold
  have hword : scaledSquare more[k] = (fed capacity ratio (raws ++ more.take k)).window.oldest :=
    Option.some.inj hold
  rw [List.take_succ_eq_append_getElem hlt, ← List.append_assoc, fed_snoc, mean_push, hword, mean,
    meanSquare, meanSquare, RollingWindow.mean_push_oldest]
  rw [window_fed, RollingWindow.size_pushAll h, List.length_map, List.length_append, hlength]
  omega

/-- A periodic input, once the window holds a period of it, leaves the mean as it is. -/
theorem mean_fed_take (hp : Periodic capacity more) {k : Nat} (hk : capacity ≤ k)
    (hle : k ≤ more.length) :
    (fed capacity ratio (raws ++ more.take k)).mean =
      (fed capacity ratio (raws ++ more.take capacity)).mean := by
  induction k, hk using Nat.le_induction with
  | base => rfl
  | succ k hk ih => rw [mean_fed_take_succ h hp hk hle, ih (Nat.le_of_lt hle)]

theorem settled_of_periodic (hp : Periodic capacity more) (hlong : capacity + 17 ≤ more.length) :
    SquareRoot.Settled (fed capacity ratio (raws ++ more)).mean.toNat
      (fed capacity ratio (raws ++ more)).estimate.toNat := by
  have hperiod : (more.take capacity).length = capacity := List.length_take_of_le (by omega)
  have hm : (fed capacity ratio (raws ++ more.take capacity)).MeanStays
      (fed capacity ratio (raws ++ more.take capacity)).mean (more.drop capacity) := by
    intro k hk
    rw [List.length_drop] at hk
    rw [fed_append, List.append_assoc, ← List.take_add]
    exact mean_fed_take h hp (by omega) (by omega)
  have hsettled := settled_of_meanStays h
    (by rw [List.length_append, hperiod]; omega) hm (by rw [List.length_drop]; omega)
  have hmean : (fed capacity ratio (raws ++ more)).mean =
      (fed capacity ratio (raws ++ more.take capacity)).mean := by
    rw [← mean_fed_take h hp (by omega) (Nat.le_refl more.length), List.take_length]
  rwa [List.append_assoc, List.take_append_drop, ← hmean] at hsettled

end

/-- The estimate is zero until the window fills, when one cold root is taken; from then on each
sample refines it by one step, and it is never below the root of the mean. Where the mean stays
the same it is settled from the seventeenth sample on, so also under a periodic input. -/
theorem estimate_never_under (h : 0 < capacity) (ratio : UInt32) (raws : List Int16) :
    (raws.length < capacity →
      (fed capacity ratio raws).estimate = 0 ∧ (fed capacity ratio raws).rms = 0 ∧
        fedRecords capacity ratio raws = []) ∧
    (capacity ≤ raws.length →
      fedRecords capacity ratio raws =
          [.windowFull (SquareRoot.cold (fed capacity ratio (raws.take capacity)).mean)] ∧
        (fed capacity ratio (raws.take capacity)).estimate =
          UInt16.ofNatClamp
            (SquareRoot.cold (fed capacity ratio (raws.take capacity)).mean).toNat ∧
        (∀ raw, (fed capacity ratio (raws ++ [raw])).estimate =
          refined (fed capacity ratio raws).estimate
            (fed capacity ratio (raws ++ [raw])).mean) ∧
        Nat.sqrt (fed capacity ratio raws).mean.toNat ≤
          (fed capacity ratio raws).estimate.toNat ∧
        (fed capacity ratio raws).rms.toNat =
          min 65535 ((fed capacity ratio raws).estimate.toNat * ratio.toNat) ∧
        ∀ mean more, (fed capacity ratio raws).MeanStays mean more → 17 ≤ more.length →
          SquareRoot.Settled mean.toNat
            ((fed capacity ratio raws).pushAll more).estimate.toNat) ∧
    ∀ more, Periodic capacity more → capacity + 17 ≤ more.length →
      SquareRoot.Settled ((fed capacity ratio raws).pushAll more).mean.toNat
        ((fed capacity ratio raws).pushAll more).estimate.toNat := by
  have hratio : (fed capacity ratio raws).ratio = ratio := ratio_pushAll _ raws
  have hrms := toNat_rms (fed capacity ratio raws)
  rw [hratio] at hrms
  refine ⟨fun hl => ?_, fun hl => ⟨fedRecords_full h hl, ?_, ?_, ?_, hrms, ?_⟩, ?_⟩
  · obtain ⟨he, hr⟩ : (fed capacity ratio raws).estimate = 0 ∧
        fedRecords capacity ratio raws = [] := fed_filling h hl
    refine ⟨he, UInt16.toNat_inj.mp ?_, hr⟩
    rw [hrms, he]
    simp
  · exact estimate_fed_full h (List.length_take_of_le hl)
  · exact fun raw => (fed_steady h hl).1
  · exact sqrt_mean_le_estimate h hl
  · intro mean more hm hlong
    rw [fed_append]
    exact settled_of_meanStays h hl hm hlong
  · intro more hp hlong
    rw [fed_append]
    exact settled_of_periodic h hp hlong

/-- Nineteen samples of a wave with a period of two. -/
def alternating : List Int16 := (List.range 19).map fun k => if k % 2 = 0 then 1000 else -500

/-- Silence, then a load. The estimate is far above the root of the mean when the load sets in,
and settles both under a steady load and under a periodic one. -/
theorem estimate_never_under_recovering :
    0 < 2 ∧ fedRecords 2 100 [0, 0, 1000] = [.windowFull 0] ∧
      Nat.sqrt (fed 2 100 [0, 0, 1000]).mean.toNat ≤ (fed 2 100 [0, 0, 1000]).estimate.toNat ∧
      (fed 2 100 [0, 0, 1000]).MeanStays 6103 (List.replicate 17 1000) ∧
      SquareRoot.Settled 6103
        ((fed 2 100 [0, 0, 1000]).pushAll (List.replicate 17 1000)).estimate.toNat ∧
      Periodic 2 alternating ∧
      SquareRoot.Settled ((fed 2 100 [0, 0, 1000]).pushAll alternating).mean.toNat
        ((fed 2 100 [0, 0, 1000]).pushAll alternating).estimate.toNat := by
  have hstays : (fed 2 100 [0, 0, 1000]).MeanStays 6103 (List.replicate 17 1000) := by
    unfold MeanStays
    decide +kernel
  have hperiodic : Periodic 2 alternating := by
    unfold Periodic
    decide
  obtain ⟨-, hsteady, hperiod⟩ :=
    estimate_never_under (by decide : 0 < 2) 100 [0, 0, 1000]
  obtain ⟨hrecords, -, -, hroot, -, hsettles⟩ := hsteady (by decide)
  refine ⟨by decide, ?_, hroot, hstays, ?_, hperiodic, ?_⟩
  · have hcold : SquareRoot.cold (fed 2 100 [0, 0]).mean = 0 := by decide +kernel
    rw [hrecords]
    exact congrArg (fun root => [LogRecord.windowFull root]) hcold
  · exact hsettles 6103 _ hstays (by decide)
  · exact hperiod _ hperiodic (by decide)

end RunningRms

end EnergyMeter
