import EnergyMeter.Proofs.StageHistory

/-!
# The offsets that a frequency loop moves to

Every move is one step, up or down, and none leaves the range. So the offsets that a loop was at
form an unbroken chain from the first to the one in force.
-/
namespace EnergyMeter

/-- One step of the offset, up within the range or down. -/
def OneStep (before after : UInt8) : Prop :=
  (after.toNat = before.toNat + 1 ∧ after.toNat ≤ 50) ∨ before.toNat = after.toNat + 1

namespace FrequencyLoop

theorem oneStep_of_moved? {loop : FrequencyLoop} {offset : UInt8} (h : loop.moved? = some offset) :
    OneStep loop.offset offset := by
  have hmax : DesignPoint.offsetMax.toNat = 50 := rfl
  have hmin : DesignPoint.offsetMin.toNat = 0 := rfl
  have hone : (1 : UInt8).toNat = 1 := rfl
  unfold moved? at h
  split at h
  · split at h
    · next hlt =>
      obtain rfl := Option.some.inj h
      rw [UInt8.lt_iff_toNat_lt, hmax] at hlt
      left
      rw [UInt8.toNat_add, hone]
      omega
    · cases h
  · split at h
    · split at h
      · next hlt =>
        obtain rfl := Option.some.inj h
        rw [UInt8.lt_iff_toNat_lt, hmin] at hlt
        right
        rw [UInt8.toNat_sub_of_le _ _ (by rw [UInt8.le_iff_toNat_le, hone]; omega), hone]
        omega
      · cases h
    · cases h

/-- A sample that is not reported leaves the offset, and one that is moves it by one step. -/
theorem observe_offset (loop : FrequencyLoop) (raw : Int16) :
    ((loop.observe raw).value.2 = none ∧ (loop.observe raw).value.1.offset = loop.offset) ∨
      ∃ offset, (loop.observe raw).value.2 = some offset ∧
        (loop.observe raw).value.1.offset = offset ∧ OneStep loop.offset offset := by
  rcases loop.observe_moved raw with hsame | ⟨offset, hm, hs, ho⟩
  · exact .inl hsame
  · exact .inr ⟨offset, hs, ho, oneStep_of_moved? hm⟩

/-- The offset that a loop starts at, then each that it moves to. -/
def offsets (loop : FrequencyLoop) (raws : List Int16) : List UInt8 :=
  loop.offset :: loop.moves raws

/-- A sample that moves the offset puts the old one in front; any other changes nothing. -/
theorem offsets_cons (loop : FrequencyLoop) (raw : Int16) (rest : List Int16) :
    loop.offsets (raw :: rest) = (loop.observe raw).value.1.offsets rest ∨
      (loop.offsets (raw :: rest) = loop.offset :: (loop.observe raw).value.1.offsets rest ∧
        OneStep loop.offset (loop.observe raw).value.1.offset) := by
  rcases loop.observe_offset raw with ⟨hn, ho⟩ | ⟨offset, hs, ho, hstep⟩
  · left
    rw [offsets, offsets, moves, hn, ho]
    rfl
  · right
    rw [offsets, offsets, moves, hs, ho]
    exact ⟨rfl, hstep⟩

theorem isChain_offsets (loop : FrequencyLoop) (raws : List Int16) :
    (loop.offsets raws).IsChain OneStep := by
  induction raws generalizing loop with
  | nil => exact List.isChain_singleton _
  | cons raw rest ih =>
    rcases loop.offsets_cons raw rest with he | ⟨he, hstep⟩
    · rw [he]
      exact ih _
    · rw [he]
      exact List.isChain_cons_cons.mpr ⟨hstep, ih _⟩

theorem offsets_le {loop : FrequencyLoop} (h : loop.offset.toNat ≤ 50) (raws : List Int16) :
    ∀ offset ∈ loop.offsets raws, offset.toNat ≤ 50 := by
  induction raws generalizing loop with
  | nil =>
    intro offset hm
    obtain rfl := List.mem_singleton.mp hm
    exact h
  | cons raw rest ih =>
    have hnext : (loop.observe raw).value.1.offset.toNat ≤ 50 := by
      rcases loop.observe_offset raw with ⟨-, ho⟩ | ⟨moved, -, ho, hstep⟩
      · rw [ho]
        exact h
      · rw [ho]
        unfold OneStep at hstep
        omega
    intro offset hm
    rcases loop.offsets_cons raw rest with he | ⟨he, -⟩
    · rw [he] at hm
      exact ih hnext offset hm
    · rw [he] at hm
      rcases List.mem_cons.mp hm with rfl | hm
      · exact h
      · exact ih hnext offset hm

/-- The last of the offsets is the one in force. -/
theorem getLast?_offsets (loop : FrequencyLoop) (raws : List Int16) :
    (loop.offsets raws).getLast? = some (loop.observeAll raws).offset := by
  induction raws generalizing loop with
  | nil => rfl
  | cons raw rest ih =>
    have hrest := ih (loop.observe raw).value.1
    rcases loop.offsets_cons raw rest with he | ⟨he, -⟩
    · rw [he, hrest]
      rfl
    · rw [he, List.getLast?_cons, hrest]
      rfl

end FrequencyLoop

end EnergyMeter
