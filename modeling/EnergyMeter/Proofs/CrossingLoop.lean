import EnergyMeter.Proofs.OffsetMoves

/-!
# The frequency loop on crossings alone

A loop that is told the positions of the zero crossings and nothing else, and keeps exact
numbers: the offset, and the position that it is locked at. The frequency loop, which is fed every
sample and counts them in a byte, makes the same moves on every stream. Its count stops at the
largest byte, but the spacing that it waits for is at most half of that.
-/
namespace EnergyMeter

/-- A loop on crossings, at an offset and locked at the position of the last crossing, unless it
has just started or moved. -/
structure CrossingLoop where
  offset : Nat
  lockedAt : Option Nat := none
  deriving DecidableEq, Repr

namespace CrossingLoop

def start (offset : Nat) : CrossingLoop := { offset := min offset 50 }

/-- The offset that a gap between two crossings asks for, where so many samples are expected. -/
def moved? (expected gap offset : Nat) : Option Nat :=
  if expected < gap then
    if offset < 50 then some (offset + 1) else none
  else if gap < expected then
    if 0 < offset then some (offset - 1) else none
  else none

/-- Takes the next crossing. A move of the offset is reported and unlocks the loop. -/
def cross (expected : Nat) (loop : CrossingLoop) (position : Nat) : CrossingLoop × Option Nat :=
  match loop.lockedAt with
  | none => ({ loop with lockedAt := some position }, none)
  | some last =>
    match moved? expected (position - last - 1) loop.offset with
    | none => ({ loop with lockedAt := some position }, none)
    | some offset => ({ offset }, some offset)

def crossAll (expected : Nat) (loop : CrossingLoop) (positions : List Nat) : CrossingLoop :=
  positions.foldl (fun loop position => (loop.cross expected position).1) loop

/-- The offsets that the loop reports at these crossings, in order. -/
def reports (expected : Nat) (loop : CrossingLoop) : List Nat → List Nat
  | [] => []
  | position :: rest =>
    (loop.cross expected position).2.toList ++ (loop.cross expected position).1.reports expected rest

def phase (loop : CrossingLoop) : Phase :=
  match loop.lockedAt with
  | none => .unlocked
  | some _ => .locked

/-- What a count in a byte shows after so many samples: those since the last crossing. -/
def ticks (loop : CrossingLoop) (seen : Nat) : Nat :=
  match loop.lockedAt with
  | none => 0
  | some last => min 255 (seen - last)

variable {expected : Nat}

@[simp] theorem crossAll_snoc (loop : CrossingLoop) (positions : List Nat) (position : Nat) :
    loop.crossAll expected (positions ++ [position]) =
      ((loop.crossAll expected positions).cross expected position).1 := by
  simp only [crossAll, List.foldl_append, List.foldl_cons, List.foldl_nil]

@[simp] theorem reports_snoc (loop : CrossingLoop) (positions : List Nat) (position : Nat) :
    loop.reports expected (positions ++ [position]) =
      loop.reports expected positions ++
        ((loop.crossAll expected positions).cross expected position).2.toList := by
  induction positions generalizing loop with
  | nil => exact List.append_nil _
  | cons first rest ih =>
    rw [List.cons_append, reports, reports, ih, List.append_assoc]
    rfl

/-- A report takes two crossings, the one that locks the loop and the one that unlocks it. -/
theorem two_mul_length_reports_le (loop : CrossingLoop) (positions : List Nat) :
    2 * (loop.reports expected positions).length ≤
      positions.length + loop.lockedAt.toList.length := by
  induction positions generalizing loop with
  | nil => exact Nat.zero_le _
  | cons position rest ih =>
    obtain ⟨offset, lockedAt⟩ := loop
    have hlocked := ih { offset, lockedAt := some position }
    rw [reports, List.length_append, List.length_cons]
    cases lockedAt with
    | none =>
      simp only [cross, Option.toList, List.length_nil, List.length_singleton] at hlocked ⊢
      omega
    | some last =>
      simp only [cross]
      cases moved? expected (position - last - 1) offset with
      | none =>
        simp only [Option.toList, List.length_nil, List.length_singleton] at hlocked ⊢
        omega
      | some moved =>
        have hmoved := ih { offset := moved }
        simp only [Option.toList, List.length_nil, List.length_singleton] at hmoved ⊢
        omega

end CrossingLoop

/-- The sample at a position, counted from one; the loop takes zero to stand before the first. -/
def sampleAt (samples : List Int16) (position : Nat) : Int16 :=
  (0 :: samples)[position]?.getD 0

/-- The positions at which a sample and the one before it have opposite signs. -/
def crossings (samples : List Int16) : List Nat :=
  (List.range' 1 samples.length).filter fun position =>
    (sampleAt samples (position - 1)).toInt * (sampleAt samples position).toInt < 0

theorem sampleAt_snoc_of_le {samples : List Int16} {position : Nat}
    (h : position ≤ samples.length) (raw : Int16) :
    sampleAt (samples ++ [raw]) position = sampleAt samples position := by
  have hlt : position < (0 :: samples).length := Nat.lt_succ_of_le h
  rw [sampleAt, sampleAt, ← List.cons_append, List.getElem?_append_left hlt]

@[simp] theorem sampleAt_snoc_last (samples : List Int16) (raw : Int16) :
    sampleAt (samples ++ [raw]) (samples.length + 1) = raw := by
  rw [sampleAt, List.getElem?_cons_succ, List.getElem?_concat_length]
  rfl

/-- A new sample adds its own position if it crosses, and no other. -/
@[simp] theorem crossings_snoc (samples : List Int16) (raw : Int16) :
    crossings (samples ++ [raw]) =
      crossings samples ++
        bif FrequencyLoop.crosses (sampleAt samples samples.length) raw then
          [samples.length + 1]
        else [] := by
  have hprefix : ∀ position ∈ List.range' 1 samples.length,
      decide ((sampleAt (samples ++ [raw]) (position - 1)).toInt *
          (sampleAt (samples ++ [raw]) position).toInt < 0) =
        decide ((sampleAt samples (position - 1)).toInt * (sampleAt samples position).toInt < 0) := by
    intro position hm
    obtain ⟨-, hlt⟩ := List.mem_range'_1.mp hm
    rw [sampleAt_snoc_of_le (by omega), sampleAt_snoc_of_le (by omega)]
  rw [crossings, List.length_append, List.length_singleton, List.range'_1_concat,
    List.filter_append, List.filter_congr hprefix, Nat.add_comm 1, List.filter_singleton,
    Nat.add_sub_cancel, sampleAt_snoc_of_le (Nat.le_refl _), sampleAt_snoc_last]
  rfl

-- A zero between two signs hides their crossing.
example : crossings [10, -3, 0, 5, -5] = [2, 5] := by decide

namespace FrequencyLoop

@[simp] theorem observe_previous (loop : FrequencyLoop) (raw : Int16) :
    (loop.observe raw).value.1.previous = raw := by
  unfold observe
  cases loop.phase with
  | unlocked => cases crosses loop.previous raw <;> rfl
  | locked =>
    cases crosses loop.previous raw with
    | false => rfl
    | true => cases loop.moved? <;> rfl

theorem observeAll_previous {loop : FrequencyLoop} (h : loop.previous = 0) (samples : List Int16) :
    (loop.observeAll samples).previous = sampleAt samples samples.length := by
  induction samples using List.reverseRecOn with
  | nil => exact h
  | append_singleton samples raw _ => simp

/-- After so many samples the loop is where the loop on crossings is. -/
structure Follows (expected seen : Nat) (loop : FrequencyLoop) (exact : CrossingLoop) : Prop where
  spacing : loop.expected.toNat = expected
  short : expected ≤ 126
  offset : loop.offset.toNat = exact.offset
  phase : loop.phase = exact.phase
  ticks : loop.ticks.toNat = exact.ticks seen
  past : ∀ last, exact.lockedAt = some last → last ≤ seen

namespace Follows

variable {expected seen last : Nat} {loop : FrequencyLoop} {exact : CrossingLoop} {raw : Int16}

theorem unlocked (h : Follows expected seen loop exact) (hl : exact.lockedAt = none) :
    loop.phase = .unlocked ∧ loop.ticks.toNat = 0 := by
  rw [h.phase, h.ticks, CrossingLoop.phase, CrossingLoop.ticks, hl]
  exact ⟨rfl, rfl⟩

theorem locked (h : Follows expected seen loop exact) (hl : exact.lockedAt = some last) :
    loop.phase = .locked ∧ loop.ticks.toNat = min 255 (seen - last) := by
  rw [h.phase, h.ticks, CrossingLoop.phase, CrossingLoop.ticks, hl]
  exact ⟨rfl, rfl⟩

/-- The cut count compares with the expected one as the exact one does. -/
theorem ticks_compare (h : Follows expected seen loop exact) (hl : exact.lockedAt = some last) :
    (loop.expected < loop.ticks ↔ expected < seen - last) ∧
      (loop.ticks < loop.expected ↔ seen - last < expected) := by
  have hshort := h.short
  rw [UInt8.lt_iff_toNat_lt, UInt8.lt_iff_toNat_lt, h.spacing, (h.locked hl).2]
  omega

theorem moved? (h : Follows expected seen loop exact) (hl : exact.lockedAt = some last) :
    loop.moved?.map UInt8.toNat =
      CrossingLoop.moved? expected (seen - last) exact.offset := by
  obtain ⟨hlong, hsmall⟩ := h.ticks_compare hl
  have hupper : loop.offset < DesignPoint.offsetMax ↔ exact.offset < 50 := by
    rw [UInt8.lt_iff_toNat_lt, h.offset]
    rfl
  have hlower : DesignPoint.offsetMin < loop.offset ↔ 0 < exact.offset := by
    rw [UInt8.lt_iff_toNat_lt, h.offset]
    rfl
  unfold FrequencyLoop.moved? CrossingLoop.moved?
  simp only [hlong, hsmall, hupper, hlower]
  split
  · split
    · next hlt =>
      rw [Option.map_some, UInt8.toNat_add, h.offset]
      exact congrArg some (Nat.mod_eq_of_lt (by change exact.offset + 1 < 256; omega))
    · rfl
  · split
    · split
      · next hlt =>
        have hone : 1 ≤ loop.offset := by
          rw [UInt8.le_iff_toNat_le, h.offset]
          exact hlt
        rw [Option.map_some, UInt8.toNat_sub_of_le _ _ hone, h.offset]
        rfl
      · rfl
    · rfl

/-- A sample that does not cross is counted while the loop is locked. -/
theorem quiet (h : Follows expected seen loop exact) (hc : crosses loop.previous raw = false) :
    Follows expected (seen + 1) (loop.observe raw).value.1 exact ∧
      (loop.observe raw).value.2 = none := by
  have hpast : ∀ last, exact.lockedAt = some last → last ≤ seen + 1 :=
    fun last hl => Nat.le_succ_of_le (h.past last hl)
  cases hl : exact.lockedAt with
  | none =>
    obtain ⟨hphase, hticks⟩ := h.unlocked hl
    have hstep : (loop.observe raw).value = ({ loop with previous := raw }, none) := by
      simp only [observe, hphase, hc]
    rw [hstep]
    refine ⟨⟨h.spacing, h.short, h.offset, h.phase, ?_, hpast⟩, rfl⟩
    rw [CrossingLoop.ticks, hl]
    exact hticks
  | some last =>
    obtain ⟨hphase, hticks⟩ := h.locked hl
    have hle := h.past last hl
    have hstep : (loop.observe raw).value =
        ({ loop with previous := raw, ticks := UInt8.ofNatClamp (loop.ticks.toNat + 1) },
          none) := by
      simp only [observe, hphase, hc]
    rw [hstep]
    refine ⟨⟨h.spacing, h.short, h.offset, h.phase, ?_, hpast⟩, rfl⟩
    simp only [CrossingLoop.ticks, hl]
    rw [Words.toNat_clamp8, hticks]
    omega

/-- A crossing does to both loops the same. -/
theorem cross (h : Follows expected seen loop exact) (hc : crosses loop.previous raw = true) :
    Follows expected (seen + 1) (loop.observe raw).value.1
        (exact.cross expected (seen + 1)).1 ∧
      (loop.observe raw).value.2.map UInt8.toNat = (exact.cross expected (seen + 1)).2 := by
  have hlast : ∀ last, some (seen + 1) = some last → last ≤ seen + 1 :=
    fun last hl => (Option.some.inj hl).ge
  have hstart : min 255 (seen + 1 - (seen + 1)) = 0 := by
    rw [Nat.sub_self]
    rfl
  cases hl : exact.lockedAt with
  | none =>
    obtain ⟨hphase, hticks⟩ := h.unlocked hl
    have hstep : (loop.observe raw).value =
        ({ loop with previous := raw, phase := .locked }, none) := by
      simp only [observe, hphase, hc]
    have hcross : exact.cross expected (seen + 1) =
        ({ exact with lockedAt := some (seen + 1) }, none) := by
      simp only [CrossingLoop.cross, hl]
    rw [hstep, hcross]
    exact ⟨⟨h.spacing, h.short, h.offset, rfl, hticks.trans hstart.symm, hlast⟩, rfl⟩
  | some last =>
    have hphase := (h.locked hl).1
    have hmoved := h.moved? hl
    have hgap : seen + 1 - last - 1 = seen - last := by omega
    cases hm : loop.moved? with
    | none =>
      -- The spacing is right or the offset at its bound: a new count starts here.
      rw [hm, Option.map_none] at hmoved
      have hstep : (loop.observe raw).value =
          ({ loop with previous := raw, ticks := 0 }, none) := by
        simp only [observe, hphase, hc, hm]
      have hcross : exact.cross expected (seen + 1) =
          ({ exact with lockedAt := some (seen + 1) }, none) := by
        simp only [CrossingLoop.cross, hl, hgap, ← hmoved]
      rw [hstep, hcross]
      exact ⟨⟨h.spacing, h.short, h.offset, hphase, hstart.symm, hlast⟩, rfl⟩
    | some offset =>
      rw [hm, Option.map_some] at hmoved
      have hstep : (loop.observe raw).value =
          ({ loop with previous := raw, ticks := 0, offset, phase := .unlocked }, some offset) := by
        simp only [observe, hphase, hc, hm]
      have hcross : exact.cross expected (seen + 1) =
          ({ offset := offset.toNat }, some offset.toNat) := by
        simp only [CrossingLoop.cross, hl, hgap, ← hmoved]
      rw [hstep, hcross]
      exact ⟨⟨h.spacing, h.short, rfl, rfl, rfl, fun _ hn => nomatch hn⟩, rfl⟩

/-- So the two loops stay together along a stream, which the one sees sample by sample and the
other crossing by crossing. -/
theorem run (h : Follows expected 0 loop exact) (hp : loop.previous = 0) (samples : List Int16) :
    Follows expected samples.length (loop.observeAll samples)
        (exact.crossAll expected (crossings samples)) ∧
      (loop.moves samples).map UInt8.toNat = exact.reports expected (crossings samples) := by
  induction samples using List.reverseRecOn with
  | nil => exact ⟨h, rfl⟩
  | append_singleton samples raw ih =>
    obtain ⟨hstays, hreports⟩ := ih
    have hprevious := observeAll_previous hp samples
    rw [observeAll_snoc, moves_snoc, List.map_append, hreports, crossings_snoc,
      List.length_append, List.length_singleton]
    cases hc : crosses (sampleAt samples samples.length) raw with
    | false =>
      rw [← hprevious] at hc
      obtain ⟨hnext, hnone⟩ := hstays.quiet hc
      rw [hnone, cond_false, List.append_nil]
      exact ⟨hnext, List.append_nil _⟩
    | true =>
      rw [← hprevious] at hc
      obtain ⟨hnext, hreport⟩ := hstays.cross hc
      rw [cond_true, CrossingLoop.crossAll_snoc, CrossingLoop.reports_snoc, ← hreport]
      refine ⟨hnext, ?_⟩
      cases ((loop.observeAll samples).observe raw).value.2 <;> rfl

end Follows

theorem follows_start (cycleLength offset : UInt8) :
    Follows (cycleLength.toNat / 2 - 1) 0 (start cycleLength offset)
      (CrossingLoop.start offset.toNat) := by
  have hlt := cycleLength.toNat_lt
  refine ⟨?_, by omega, ?_, rfl, rfl, fun _ hn => nomatch hn⟩
  · rw [start, UInt8.toNat_ofNat']
    omega
  · rw [start, UInt8.toNat_max, UInt8.toNat_min]
    exact Nat.zero_max _

/-- On every stream the loop makes the moves of the loop on crossings, and is where that one is.
So each report is one step away from the offset before, it takes two crossings, and the cut of
the count decides nothing. -/
theorem follows_crossings (cycleLength offset : UInt8) (samples : List Int16) :
    let loop := start cycleLength offset
    let now := loop.observeAll samples
    let expected := cycleLength.toNat / 2 - 1
    let exact := (CrossingLoop.start offset.toNat).crossAll expected (crossings samples)
    (loop.moves samples).map UInt8.toNat =
        (CrossingLoop.start offset.toNat).reports expected (crossings samples) ∧
      now.offset.toNat = exact.offset ∧
      now.phase = exact.phase ∧
      now.ticks.toNat = exact.ticks samples.length ∧
      now.offset.toNat ≤ 50 ∧
      (loop.offsets samples).IsChain OneStep ∧
      2 * (loop.moves samples).length ≤ (crossings samples).length ∧
      ∀ last, exact.lockedAt = some last →
        (now.expected < now.ticks ↔ expected < samples.length - last) ∧
          (now.ticks < now.expected ↔ samples.length - last < expected) := by
  intro loop now expected exact
  obtain ⟨hfollows, hreports⟩ := (follows_start cycleLength offset).run rfl samples
  have hstart : loop.offset.toNat ≤ 50 := by
    rw [(follows_start cycleLength offset).offset]
    exact Nat.min_le_right _ _
  have hlast : now.offset ∈ loop.offsets samples :=
    List.mem_of_getLast? (loop.getLast?_offsets samples)
  have hlength : (loop.moves samples).length =
      ((CrossingLoop.start offset.toNat).reports expected (crossings samples)).length := by
    rw [← hreports, List.length_map]
  refine ⟨hreports, hfollows.offset, hfollows.phase, hfollows.ticks,
    offsets_le hstart samples _ hlast, loop.isChain_offsets samples, ?_,
    fun _ hl => hfollows.ticks_compare hl⟩
  rw [hlength]
  exact CrossingLoop.two_mul_length_reports_le _ _

end FrequencyLoop

end EnergyMeter
