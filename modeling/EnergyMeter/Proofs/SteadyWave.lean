import EnergyMeter.Proofs.CrossingLoop

/-!
# The frequency loop on a steady wave

A wave whose half-cycles all have the same length crosses zero at equal distances. At such
crossings the loop on crossings either never moves, or locks and moves in turn, always the same
way, until its offset is at the bound; from then on it stays locked. So a steady error is taken
out in one step for every two half-cycles, and how much the offset has moved has a closed form.
-/
namespace EnergyMeter

namespace CrossingLoop

/-- At this gap the loop moves along a path of offsets, one step with each report, and does not
move on from its end. -/
structure MovesAlong (expected gap : Nat) (path : Nat → Nat) (last : Nat) : Prop where
  move : ∀ k < last, moved? expected gap (path k) = some (path (k + 1))
  stay : moved? expected gap (path last) = none

theorem movesAlong_exact {expected gap : Nat} (h : gap = expected) (offset : Nat) :
    MovesAlong expected gap (fun _ => offset) 0 := by
  subst h
  constructor
  · exact fun k hk => absurd hk (Nat.not_lt_zero k)
  · simp only [moved?, Nat.lt_irrefl, if_false]

theorem movesAlong_long {expected gap offset : Nat} (h : expected < gap) (ho : offset ≤ 50) :
    MovesAlong expected gap (fun k => offset + k) (50 - offset) := by
  constructor
  · intro k hk
    have hlt : offset + k < 50 := by omega
    simp only [moved?, h, hlt, if_true, Nat.add_assoc]
  · have hbound : ¬ offset + (50 - offset) < 50 := by omega
    simp only [moved?, h, hbound, if_true, if_false]

theorem movesAlong_short {expected gap : Nat} (h : gap < expected) (offset : Nat) :
    MovesAlong expected gap (fun k => offset - k) offset := by
  have hnot : ¬ expected < gap := h.asymm
  constructor
  · intro k hk
    have hlt : 0 < offset - k := by omega
    simp only [moved?, h, hnot, hlt, if_true, if_false, Nat.sub_sub]
  · simp only [moved?, h, hnot, Nat.sub_self, Nat.lt_irrefl, if_true, if_false]

section

variable {expected offset next locked position : Nat}

theorem cross_unlocked :
    ({ offset } : CrossingLoop).cross expected position =
      ({ offset, lockedAt := some position }, none) := rfl

theorem cross_moving (h : moved? expected (position - locked - 1) offset = some next) :
    ({ offset, lockedAt := some locked } : CrossingLoop).cross expected position =
      ({ offset := next }, some next) := by
  simp only [cross, h]

theorem cross_staying (h : moved? expected (position - locked - 1) offset = none) :
    ({ offset, lockedAt := some locked } : CrossingLoop).cross expected position =
      ({ offset, lockedAt := some position }, none) := by
  simp only [cross, h]

end

/-- Where the loop is after so many crossings at equal distances. Every second one moves it, as
far as the path goes, and leaves it unlocked. -/
def onPath (path : Nat → Nat) (last first step count : Nat) : CrossingLoop where
  offset := path (min (count / 2) last)
  lockedAt := if count % 2 = 0 ∧ count / 2 ≤ last then none else some (first + step * (count - 1))

section

variable {expected last first step count : Nat} {path : Nat → Nat}

theorem onPath_unlocked (h : count % 2 = 0 ∧ count / 2 ≤ last) :
    onPath path last first step count = { offset := path (count / 2) } := by
  rw [onPath, if_pos h, Nat.min_eq_left h.2]

theorem onPath_locked (h : ¬ (count % 2 = 0 ∧ count / 2 ≤ last)) :
    onPath path last first step count =
      { offset := path (min (count / 2) last), lockedAt := some (first + step * (count - 1)) } := by
  rw [onPath, if_neg h]

/-- The next crossing locks the loop if it has just moved or not begun, else it moves it, else,
at the end of the path, it starts a new count. -/
theorem cross_onPath (h : MovesAlong expected (step - 1) path last) (hs : 0 < step) :
    (onPath path last first step count).cross expected (first + step * count) =
      (onPath path last first step (count + 1),
        if count % 2 = 1 ∧ count / 2 < last then some (path (count / 2 + 1)) else none) := by
  by_cases hunlocked : count % 2 = 0 ∧ count / 2 ≤ last
  · -- The loop has no distance to measure yet.
    have hhalf : (count + 1) / 2 = count / 2 := by omega
    rw [onPath_unlocked hunlocked, onPath_locked (by omega), if_neg (by omega), cross_unlocked,
      hhalf, Nat.min_eq_left hunlocked.2, Nat.add_sub_cancel]
  · have hgap : first + step * count - (first + step * (count - 1)) - 1 = step - 1 := by
      obtain ⟨before, rfl⟩ : ∃ before, count = before + 1 :=
        Nat.exists_eq_succ_of_ne_zero (by omega)
      rw [Nat.add_sub_cancel, Nat.mul_succ]
      omega
    -- From here on the loop was locked by the crossing before.
    rw [onPath_locked hunlocked]
    by_cases hmoves : count % 2 = 1 ∧ count / 2 < last
    · have hhalf : (count + 1) / 2 = count / 2 + 1 := by omega
      rw [onPath_unlocked (by omega), if_pos hmoves, hhalf, Nat.min_eq_left hmoves.2.le]
      exact cross_moving (by rw [hgap]; exact h.move _ hmoves.2)
    · have hend : min (count / 2) last = last := by omega
      have hnext : min ((count + 1) / 2) last = last := by omega
      rw [onPath_locked (by omega), if_neg hmoves, hend, hnext, Nat.add_sub_cancel]
      exact cross_staying (by rw [hgap]; exact h.stay)

/-- At equal distances the reports are the path, one offset for every two crossings. -/
theorem crossAll_spaced (h : MovesAlong expected (step - 1) path last) (hs : 0 < step)
    (first count : Nat) :
    ({ offset := path 0 } : CrossingLoop).crossAll expected (List.range' first count step) =
        onPath path last first step count ∧
      ({ offset := path 0 } : CrossingLoop).reports expected (List.range' first count step) =
        (List.range (min (count / 2) last)).map fun k => path (k + 1) := by
  induction count with
  | zero =>
    rw [onPath_unlocked ⟨rfl, Nat.zero_le _⟩, Nat.zero_div, Nat.zero_min]
    exact ⟨rfl, rfl⟩
  | succ count ih =>
    obtain ⟨hloop, hreports⟩ := ih
    rw [List.range'_concat, crossAll_snoc, reports_snoc, hloop, hreports, cross_onPath h hs]
    refine ⟨rfl, ?_⟩
    by_cases hmoves : count % 2 = 1 ∧ count / 2 < last
    · have hhalf : min ((count + 1) / 2) last = count / 2 + 1 := by omega
      rw [if_pos hmoves, hhalf, Nat.min_eq_left hmoves.2.le, List.range_succ, List.map_append]
      rfl
    · have hhalf : min ((count + 1) / 2) last = min (count / 2) last := by omega
      rw [if_neg hmoves, hhalf]
      exact List.append_nil _

end

end CrossingLoop

/-- Half-cycles of so many samples: those of one half-cycle have the same sign, and those of the
next the other. -/
structure IsWave (length : Nat) (halves : List (List Int16)) : Prop where
  length : ∀ half ∈ halves, half.length = length
  sign : ∀ half ∈ halves, (∀ raw ∈ half, 0 < raw.toInt) ∨ ∀ raw ∈ half, raw.toInt < 0
  alternate : halves.IsChain fun half next =>
    ∀ raw ∈ half, ∀ after ∈ next, raw.toInt * after.toInt < 0

/-- The last sample of a stream that ends with a half-cycle is one of that half-cycle. -/
theorem sampleAt_append_mem (samples : List Int16) {half : List Int16} (h : half ≠ []) :
    sampleAt (samples ++ half) (samples ++ half).length ∈ half := by
  obtain ⟨init, last, rfl⟩ := List.eq_nil_or_concat' half |>.resolve_left h
  rw [← List.append_assoc, List.length_append, List.length_singleton, sampleAt_snoc_last]
  exact List.mem_append_right _ (List.mem_singleton_self _)

/-- Only the first sample of a half-cycle can cross. -/
theorem crossings_append_half (samples : List Int16) {first : Int16} {rest : List Int16}
    (h : (∀ raw ∈ first :: rest, 0 < raw.toInt) ∨ ∀ raw ∈ first :: rest, raw.toInt < 0) :
    crossings (samples ++ first :: rest) = crossings (samples ++ [first]) := by
  induction rest using List.reverseRecOn with
  | nil => rfl
  | append_singleton rest raw ih =>
    have hsub : ∀ other ∈ first :: rest, other ∈ first :: (rest ++ [raw]) := by
      intro other hm
      rw [← List.cons_append]
      exact List.mem_append_left _ hm
    have hraw : raw ∈ first :: (rest ++ [raw]) := by simp
    have hbefore := sampleAt_append_mem samples (List.cons_ne_nil first rest)
    have hquiet : FrequencyLoop.crosses
        (sampleAt (samples ++ first :: rest) (samples ++ first :: rest).length) raw = false := by
      unfold FrequencyLoop.crosses
      rw [decide_eq_false_iff_not, not_lt]
      rcases h with hpos | hneg
      · exact Int.mul_nonneg (hpos _ (hsub _ hbefore)).le (hpos raw hraw).le
      · exact Int.mul_nonneg_of_nonpos_of_nonpos (hneg _ (hsub _ hbefore)).le (hneg raw hraw).le
    rw [← List.cons_append, ← List.append_assoc, crossings_snoc, hquiet, cond_false,
      List.append_nil]
    exact ih (h.imp (fun hpos other hm => hpos other (hsub other hm))
      fun hneg other hm => hneg other (hsub other hm))

namespace IsWave

variable {length : Nat} {halves : List (List Int16)} {half : List Int16}

theorem init (h : IsWave length (halves ++ [half])) : IsWave length halves :=
  ⟨fun other hm => h.length other (List.mem_append_left _ hm),
    fun other hm => h.sign other (List.mem_append_left _ hm), h.alternate.left_of_append⟩

theorem length_flatten (h : IsWave length halves) :
    halves.flatten.length = length * halves.length := by
  induction halves using List.reverseRecOn with
  | nil => rfl
  | append_singleton halves half ih =>
    have hlast := h.length half (List.mem_append_right _ (List.mem_singleton_self _))
    rw [List.flatten_concat, List.length_append, ih h.init, hlast, List.length_append,
      List.length_singleton, Nat.mul_succ]

/-- Each half-cycle after the first crosses with its first sample. -/
theorem crossings_flatten (h : IsWave length halves) (hl : 0 < length) :
    crossings halves.flatten = List.range' (length + 1) (halves.length - 1) length := by
  induction halves using List.reverseRecOn with
  | nil => rfl
  | append_singleton halves half ih =>
    have hmem : half ∈ halves ++ [half] := List.mem_append_right _ (List.mem_singleton_self _)
    obtain ⟨first, rest, rfl⟩ : ∃ first rest, half = first :: rest := by
      apply List.exists_cons_of_ne_nil
      rintro rfl
      exact hl.ne (h.length [] hmem)
    rw [List.flatten_concat, crossings_append_half _ (h.sign _ hmem), crossings_snoc, ih h.init]
    rcases List.eq_nil_or_concat' halves with rfl | ⟨earlier, before, rfl⟩
    · -- Before the first sample the loop has a zero, from which nothing crosses.
      have hquiet : FrequencyLoop.crosses (sampleAt [] 0) first = false := by
        show decide (0 * first.toInt < 0) = false
        rw [Int.zero_mul]
        rfl
      show [] ++ (bif FrequencyLoop.crosses (sampleAt [] 0) first then [1] else []) = _
      rw [hquiet]
      rfl
    · have hbefore : before ∈ earlier ++ [before] :=
        List.mem_append_right _ (List.mem_singleton_self _)
      have hne : before ≠ [] := by
        rintro rfl
        exact hl.ne (h.init.length [] hbefore)
      have hlast := sampleAt_append_mem earlier.flatten hne
      rw [← List.flatten_concat] at hlast
      have hturn : FrequencyLoop.crosses (sampleAt (earlier ++ [before]).flatten
          (earlier ++ [before]).flatten.length) first = true := by
        have hsigns := (List.isChain_append.mp h.alternate).2.2 before
          (by rw [List.getLast?_concat]; rfl) (first :: rest) rfl
        exact decide_eq_true (hsigns _ hlast first List.mem_cons_self)
      have hposition : length * (earlier.length + 1) + 1 = length + 1 + length * earlier.length := by
        rw [Nat.mul_succ]
        omega
      rw [hturn, cond_true, h.init.length_flatten]
      simp only [List.length_append, List.length_singleton, Nat.add_sub_cancel]
      rw [List.range'_concat, hposition]

end IsWave

/-- The crossings of a stream begin with those of its first samples. -/
theorem crossings_prefix {samples seen : List Int16} (h : seen <+: samples) :
    crossings seen <+: crossings samples := by
  obtain ⟨more, rfl⟩ := h
  induction more using List.reverseRecOn with
  | nil => rw [List.append_nil]
  | append_singleton more raw ih =>
    rw [← List.append_assoc, crossings_snoc]
    exact ih.trans (List.prefix_append _ _)

namespace FrequencyLoop

/-- Once the loop has this offset, it is locked from the next crossing on. -/
def LocksAt (loop : FrequencyLoop) (samples : List Int16) (offset : Nat) : Prop :=
  ∀ seen more, seen ++ more <+: samples → (loop.observeAll seen).offset.toNat = offset →
    (crossings seen).length < (crossings (seen ++ more)).length →
      (loop.observeAll (seen ++ more)).phase = .locked

section

variable {cycleLength offset : UInt8} {length last : Nat} {halves : List (List Int16)}
  {path : Nat → Nat}

/-- On a wave, after any part of it, the loop is on the path that its half-cycles lead along. -/
theorem follows_onPath (hw : IsWave length halves) (hl : 0 < length)
    (hm : CrossingLoop.MovesAlong (cycleLength.toNat / 2 - 1) (length - 1) path last)
    (hstart : CrossingLoop.start offset.toNat = { offset := path 0 }) {seen : List Int16}
    (hseen : seen <+: halves.flatten) :
    Follows (cycleLength.toNat / 2 - 1) seen.length ((start cycleLength offset).observeAll seen)
        (CrossingLoop.onPath path last (length + 1) length (crossings seen).length) ∧
      ((start cycleLength offset).moves seen).map UInt8.toNat =
        (List.range (min ((crossings seen).length / 2) last)).map fun k => path (k + 1) := by
  obtain ⟨hfollows, hreports⟩ := (follows_start cycleLength offset).run rfl seen
  have hprefix := crossings_prefix hseen
  rw [hw.crossings_flatten hl] at hprefix
  obtain ⟨more, hmore⟩ := hprefix
  obtain ⟨count, -, hcount, -⟩ := List.range'_eq_append_iff.mp hmore.symm
  obtain ⟨hloop, hpath⟩ := CrossingLoop.crossAll_spaced hm hl (length + 1) count
  rw [hstart, hcount, hloop] at hfollows
  rw [hstart, hcount, hpath] at hreports
  rw [hcount, List.length_range']
  exact ⟨hfollows, hreports⟩

theorem locksAt_end (hw : IsWave length halves) (hl : 0 < length)
    (hm : CrossingLoop.MovesAlong (cycleLength.toNat / 2 - 1) (length - 1) path last)
    (hstart : CrossingLoop.start offset.toNat = { offset := path 0 })
    (hend : ∀ k < last, path k ≠ path last) :
    (start cycleLength offset).LocksAt halves.flatten (path last) := by
  intro seen more hprefix hat hcrossed
  -- The offset of the end is met nowhere else on the path, so the loop has come to the end.
  have hseen := (follows_onPath hw hl hm hstart ((List.prefix_append seen more).trans hprefix)).1
  have hmore := (follows_onPath hw hl hm hstart hprefix).1
  have hreached : last ≤ (crossings seen).length / 2 := by
    rw [hseen.offset] at hat
    by_contra hshort
    rw [not_le] at hshort
    exact hend _ hshort (by rw [← hat, CrossingLoop.onPath, Nat.min_eq_left hshort.le])
  rw [hmore.phase, CrossingLoop.onPath_locked (by omega)]
  rfl

end

/-- On a wave of half-cycles of one length the loop never moves if they have the length that it
expects. If they are longer it moves up by one at every second crossing to the upper bound, if
they are shorter down to the lower. From its end the next crossing locks it for good. -/
theorem wave_moves_to_bound (cycleLength : UInt8) {offset : UInt8} (ho : offset.toNat ≤ 50)
    {length : Nat} (hl : 0 < length) {halves : List (List Int16)} (hw : IsWave length halves) :
    let loop := start cycleLength offset
    let reports := (loop.moves halves.flatten).map UInt8.toNat
    let expected := cycleLength.toNat / 2 - 1
    let turns := (halves.length - 1) / 2
    (length - 1 = expected →
      reports = [] ∧ loop.LocksAt halves.flatten offset.toNat) ∧
    (expected < length - 1 →
      reports = (List.range (min turns (50 - offset.toNat))).map (fun k => offset.toNat + (k + 1)) ∧
        loop.LocksAt halves.flatten 50) ∧
    (length - 1 < expected →
      reports = (List.range (min turns offset.toNat)).map (fun k => offset.toNat - (k + 1)) ∧
        loop.LocksAt halves.flatten 0) := by
  intro loop reports expected turns
  have hstart : CrossingLoop.start offset.toNat = { offset := offset.toNat } := by
    rw [CrossingLoop.start, Nat.min_eq_left ho]
  have hturns : (crossings halves.flatten).length / 2 = turns := by
    rw [hw.crossings_flatten hl, List.length_range']
  have hwhole : halves.flatten <+: halves.flatten := List.prefix_refl _
  refine ⟨fun hexact => ?_, fun hlong => ?_, fun hshort => ?_⟩
  · have hm := CrossingLoop.movesAlong_exact hexact offset.toNat
    have hreports := (follows_onPath hw hl hm hstart hwhole).2
    rw [Nat.min_zero] at hreports
    exact ⟨hreports, locksAt_end hw hl hm hstart fun k hk => absurd hk (Nat.not_lt_zero k)⟩
  · have hm := CrossingLoop.movesAlong_long hlong ho
    have hreports := (follows_onPath hw hl hm hstart hwhole).2
    have hlocks := locksAt_end hw hl hm hstart fun k hk => by omega
    rw [hturns] at hreports
    rw [Nat.add_sub_cancel' ho] at hlocks
    exact ⟨hreports, hlocks⟩
  · have hm := CrossingLoop.movesAlong_short hshort offset.toNat
    have hreports := (follows_onPath hw hl hm hstart hwhole).2
    have hlocks := locksAt_end hw hl hm hstart fun k hk => by omega
    rw [hturns] at hreports
    rw [Nat.sub_self] at hlocks
    exact ⟨hreports, hlocks⟩

/-- Half-cycles of three samples, where two are expected. -/
def slowWave : List (List Int16) :=
  [[-3, -900, -20], [7, 1, 4000], [-1, -1, -30000], [2, 800, 6], [-40, -9, -8], [1, 2, 3]]

/-- Every sample crosses. -/
def fastWave : List (List Int16) := [[5], [-700], [1], [-1], [32767], [-32768], [10]]

def trueWave : List (List Int16) := [[-3, -4], [9, 2], [-32768, -1], [8, 8]]

/-- One step below the upper bound on the slow wave, one above the lower on the fast one. -/
theorem wave_moves_to_bound_both :
    (49 : UInt8).toNat ≤ 50 ∧ IsWave 3 slowWave ∧
      ((start 4 49).moves slowWave.flatten).map UInt8.toNat = [50] ∧
      (start 4 49).LocksAt slowWave.flatten 50 ∧
      (1 : UInt8).toNat ≤ 50 ∧ IsWave 1 fastWave ∧
      ((start 4 1).moves fastWave.flatten).map UInt8.toNat = [0] ∧
      (start 4 1).LocksAt fastWave.flatten 0 ∧
      (25 : UInt8).toNat ≤ 50 ∧ IsWave 2 trueWave ∧
      ((start 4 25).moves trueWave.flatten).map UInt8.toNat = [] := by
  have hslow : IsWave 3 slowWave := ⟨by decide, by simp [slowWave], by simp [slowWave]⟩
  have hfast : IsWave 1 fastWave := ⟨by decide, by simp [fastWave], by simp [fastWave]⟩
  have htrue : IsWave 2 trueWave := ⟨by decide, by simp [trueWave], by simp [trueWave]⟩
  obtain ⟨hup, hupper⟩ :=
    (wave_moves_to_bound 4 (by decide : (49 : UInt8).toNat ≤ 50) (by decide) hslow).2.1 (by decide)
  obtain ⟨hdown, hlower⟩ :=
    (wave_moves_to_bound 4 (by decide : (1 : UInt8).toNat ≤ 50) (by decide) hfast).2.2 (by decide)
  obtain ⟨hnone, -⟩ :=
    (wave_moves_to_bound 4 (by decide : (25 : UInt8).toNat ≤ 50) (by decide) htrue).1 (by decide)
  exact ⟨by decide, hslow, hup, hupper, by decide, hfast, hdown, hlower, by decide, htrue, hnone⟩

end FrequencyLoop

end EnergyMeter
