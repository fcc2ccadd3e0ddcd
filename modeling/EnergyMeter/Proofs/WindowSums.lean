import EnergyMeter.Proofs.WindowContents

/-!
# The sum and the mean of a rolling window

The running sum follows the words that enter and leave, so it is the sum of the words held, and
their mean is its quotient by their number. In the ring the words lie by their position in the
stream: each slot holds the last word whose position leads to it.
-/
namespace EnergyMeter

namespace RollingWindow

variable {capacity : Nat}

/-- The words held as numbers, oldest first. -/
def values (w : RollingWindow capacity) : List Nat := w.toList.map UInt32.toNat

theorem length_values (w : RollingWindow capacity) : w.values.length = w.size := by
  rw [values, List.length_map, length_toList]

theorem sum_values_le {w : RollingWindow capacity} {bound : Nat}
    (h : ∀ word ∈ w.toList, word.toNat ≤ bound) : w.values.sum ≤ w.size * bound := by
  have hle : ∀ value ∈ w.values, value ≤ bound := by
    intro value hm
    obtain ⟨word, hw, rfl⟩ := List.mem_map.mp hm
    exact h word hw
  have hsum := List.sum_le_card_nsmul w.values bound hle
  rwa [length_values, smul_eq_mul] at hsum

theorem sum_values_lt (h : capacity ≤ 2 ^ 32) {w : RollingWindow capacity} (hw : w.size ≤ capacity) :
    w.values.sum < 2 ^ 64 := by
  have hle := sum_values_le fun word (_ : word ∈ w.toList) => Nat.le_sub_one_of_lt word.toNat_lt
  have hsize : w.size * (2 ^ 32 - 1) ≤ 2 ^ 32 * (2 ^ 32 - 1) :=
    Nat.mul_le_mul_right _ (hw.trans h)
  omega

theorem Ring.values_push_filling {w : RollingWindow capacity} (h : w.Ring)
    (hs : w.size < capacity) (word : UInt32) : (w.push word).values = w.values ++ [word.toNat] := by
  rw [values, (h.push_filling hs word).2, List.map_append]
  rfl

theorem Ring.values_push_steady {w : RollingWindow capacity} (h : w.Ring)
    (hs : w.size = capacity) (word : UInt32) :
    (w.push word).values = w.values.tail ++ [word.toNat] := by
  rw [values, (h.push_steady hs word).2, List.map_append, List.map_tail]
  rfl

/-- The first word of a full ring is the one that it gives up next. -/
theorem Ring.toList_eq_cons {w : RollingWindow capacity} (h : w.Ring) (hs : w.size = capacity) :
    w.toList = w.oldest :: w.toList.tail := by
  have hn : w.next < w.slots.toList.length := by
    rw [Array.length_toList, ← size, hs]
    exact h.next_lt
  have hold : w.oldest = w.slots.toList[w.next] := by
    rw [oldest, Array.getD_eq_getD_getElem?, ← Array.getElem?_toList, List.getElem?_eq_getElem hn]
    rfl
  rw [toList, List.drop_eq_getElem_cons hn, List.cons_append, List.tail_cons, hold]

theorem Ring.sum_values_eq {w : RollingWindow capacity} (h : w.Ring) (hs : w.size = capacity) :
    w.values.sum = w.oldest.toNat + w.values.tail.sum := by
  conv_lhs => rw [values, h.toList_eq_cons hs]
  rw [List.map_cons, List.sum_cons, List.map_tail]
  rfl

/-- The sum of the words held, as far as a double word can count. -/
def SumsUp (w : RollingWindow capacity) : Prop := w.sum.toNat = w.values.sum % 2 ^ 64

theorem Ring.sumsUp_push {w : RollingWindow capacity} (h : w.Ring) (hw : w.SumsUp)
    (word : UInt32) : (w.push word).SumsUp := by
  unfold SumsUp at hw ⊢
  rcases Nat.lt_or_eq_of_le h.size_le with hs | hs
  · have hsum : (w.push word).sum = w.sum + word.toUInt64 := by rw [push_of_filling hs]
    rw [h.values_push_filling hs, List.sum_append, List.sum_singleton, hsum, UInt64.toNat_add,
      UInt32.toNat_toUInt64, hw, Nat.mod_add_mod]
  · have hsum : (w.push word).sum = w.sum - w.oldest.toUInt64 + word.toUInt64 := by
      rw [push_of_steady hs]
    have hlt := w.oldest.toNat_lt
    rw [h.values_push_steady hs, List.sum_append, List.sum_singleton, hsum, UInt64.toNat_add,
      UInt64.toNat_sub, UInt32.toNat_toUInt64, UInt32.toNat_toUInt64, hw, h.sum_values_eq hs]
    omega

theorem sumsUp_pushAll (h : 0 < capacity) (words : List UInt32) :
    ((empty : RollingWindow capacity).pushAll words).SumsUp := by
  induction words using List.reverseRecOn with
  | nil => rfl
  | append_singleton words word ih =>
    rw [pushAll_snoc]
    exact (toList_pushAll h words).1.sumsUp_push ih word

theorem SumsUp.exact {w : RollingWindow capacity} (hw : w.SumsUp) (h : w.Ring)
    (hc : capacity ≤ 2 ^ 32) : w.sum.toNat = w.values.sum := by
  rw [hw, Nat.mod_eq_of_lt (sum_values_lt hc h.size_le)]

/-- A push is exact: the word that leaves is in the sum, and the word that enters fits beside the
rest. -/
structure PushExact (w : RollingWindow capacity) (word : UInt32) : Prop where
  leaves : w.fill = .steady → w.oldest.toNat ≤ w.sum.toNat
  replaces : w.fill = .steady → w.sum.toNat - w.oldest.toNat + word.toNat < 2 ^ 64
  enters : w.fill = .filling → w.sum.toNat + word.toNat < 2 ^ 64

theorem Ring.pushExact {w : RollingWindow capacity} (h : w.Ring) (hw : w.SumsUp)
    (hc : capacity ≤ 2 ^ 32) (word : UInt32) : w.PushExact word := by
  have hsum := hw.exact h hc
  rcases Nat.lt_or_eq_of_le h.size_le with hs | hs
  · have hnext := sum_values_lt hc (h.push_filling hs word).1.size_le
    rw [h.values_push_filling hs, List.sum_append, List.sum_singleton] at hnext
    have hfill : w.fill ≠ .steady := by simp [fill_filling hs]
    exact ⟨fun hf => absurd hf hfill, fun hf => absurd hf hfill, fun _ => by omega⟩
  · have hnext := sum_values_lt hc (h.push_steady hs word).1.size_le
    rw [h.values_push_steady hs, List.sum_append, List.sum_singleton] at hnext
    have hcons := h.sum_values_eq hs
    have hfill : w.fill ≠ .filling := by simp [fill_steady hs]
    exact ⟨fun _ => by omega, fun _ => by omega, fun hf => absurd hf hfill⟩

/-- The quotient always fits a word, also of a sum that went around. -/
theorem SumsUp.mean {w : RollingWindow capacity} (hw : w.SumsUp) (hpos : 0 < w.size) :
    ∃ mean, w.mean = some mean ∧ mean.toNat = w.values.sum % 2 ^ 64 / w.size := by
  have hle := sum_values_le fun word (_ : word ∈ w.toList) => Nat.le_sub_one_of_lt word.toNat_lt
  have hquotient : w.values.sum % 2 ^ 64 / w.size < UInt32.size := by
    have h1 : w.values.sum % 2 ^ 64 / w.size ≤ 2 ^ 32 - 1 := by
      apply Nat.div_le_of_le_mul
      exact (Nat.mod_le _ _).trans hle
    exact Nat.lt_of_le_pred (by decide) h1
  refine ⟨UInt32.ofNat (w.values.sum % 2 ^ 64 / w.size), ?_, UInt32.toNat_ofNat_of_lt' hquotient⟩
  simp only [RollingWindow.mean, if_neg (Nat.ne_of_gt hpos)]
  rw [hw, if_pos hquotient]

theorem mean_of_empty {w : RollingWindow capacity} (h : w.size = 0) : w.mean = none := if_pos h

/-- A full ring that is given once more the word that it gives up keeps its mean. -/
theorem mean_push_oldest {w : RollingWindow capacity} (h : w.size = capacity) :
    (w.push w.oldest).mean = w.mean := by
  have hsize : (w.push w.oldest).size = w.size := by
    rw [push_of_steady h]
    exact Array.size_setIfInBounds
  have hsum : (w.push w.oldest).sum = w.sum := by
    rw [push_of_steady h]
    exact UInt64.sub_add_cancel _ _
  simp only [mean, hsize, hsum]

/-- The mean of numbers, rounded down, lies between the smallest and the largest. -/
theorem exists_min_max_mean {values : List Nat} (h : values ≠ []) :
    ∃ least greatest, values.min? = some least ∧ values.max? = some greatest ∧
      least ≤ values.sum / values.length ∧ values.sum / values.length ≤ greatest := by
  obtain ⟨least, hmin⟩ := Option.isSome_iff_exists.mp (List.isSome_min?_of_ne_nil h)
  obtain ⟨greatest, hmax⟩ := Option.isSome_iff_exists.mp (List.isSome_max?_of_ne_nil h)
  have hpos : 0 < values.length := List.length_pos_iff.mpr h
  have hlow := List.card_nsmul_le_sum values least (List.min?_eq_some_iff.mp hmin).2
  have hhigh := List.sum_le_card_nsmul values greatest (List.max?_eq_some_iff.mp hmax).2
  rw [smul_eq_mul] at hlow hhigh
  refine ⟨least, greatest, hmin, hmax, ?_, Nat.div_le_of_le_mul hhigh⟩
  rw [Nat.le_div_iff_mul_le hpos, Nat.mul_comm]
  exact hlow

theorem size_pushAll (h : 0 < capacity) (words : List UInt32) :
    ((empty : RollingWindow capacity).pushAll words).size = min capacity words.length := by
  rw [← length_toList, (toList_pushAll h words).2, List.length_drop]
  omega

@[simp] theorem next_push (w : RollingWindow capacity) (word : UInt32) :
    (w.push word).next = (w.next + 1) % capacity := by
  unfold push
  cases w.fill <;> rfl

theorem next_pushAll (words : List UInt32) :
    ((empty : RollingWindow capacity).pushAll words).next = words.length % capacity := by
  induction words using List.reverseRecOn with
  | nil => exact (Nat.zero_mod _).symm
  | append_singleton words word ih =>
    simp [ih]

/-- Positions less than a turn of the ring apart have different slots. -/
theorem mod_ne_of_lt {i j n : Nat} (h : i < j) (hn : j < i + n) : j % n ≠ i % n := by
  intro he
  have hdvd : n ∣ j - i := Nat.dvd_of_mod_eq_zero (Nat.sub_mod_eq_zero_of_mod_eq he)
  have hzero := Nat.eq_zero_of_dvd_of_lt hdvd (by omega)
  omega

/-- The words of the last turn lie where their positions lead. -/
theorem getElem?_slots_pushAll (h : 0 < capacity) (words : List UInt32) {position : Nat}
    (hp : position < words.length) (hlast : words.length ≤ position + capacity) :
    ((empty : RollingWindow capacity).pushAll words).slots[position % capacity]? =
      words[position]? := by
  induction words using List.reverseRecOn generalizing position with
  | nil => exact absurd hp (Nat.not_lt_zero _)
  | append_singleton words word ih =>
    have hsize := size_pushAll h words
    have hnext : ((empty : RollingWindow capacity).pushAll words).next =
        words.length % capacity := next_pushAll words
    rw [List.length_append, List.length_singleton] at hp hlast
    rw [pushAll_snoc]
    generalize (empty : RollingWindow capacity).pushAll words = w at ih hsize hnext ⊢
    have hslot : (w.push word).slots[words.length % capacity]? = some word ∧
        ∀ slot ≠ words.length % capacity, (w.push word).slots[slot]? = w.slots[slot]? := by
      rcases Nat.lt_or_ge words.length capacity with hlt | hge
      · have hs : w.slots.size = words.length := by rw [← size, hsize]; omega
        rw [push_of_filling (by rw [hsize]; omega), Nat.mod_eq_of_lt hlt]
        refine ⟨?_, fun slot hne => ?_⟩
        · rw [Array.getElem?_push, if_pos hs.symm]
        · rw [Array.getElem?_push, if_neg (by rw [hs]; exact hne)]
      · have hs : w.slots.size = capacity := by rw [← size, hsize]; omega
        rw [push_of_steady hs, hnext]
        refine ⟨?_, fun slot hne => ?_⟩
        · rw [Array.getElem?_setIfInBounds, if_pos rfl, if_pos (by rw [hs]; exact Nat.mod_lt _ h)]
        · rw [Array.getElem?_setIfInBounds, if_neg (Ne.symm hne)]
    rcases Nat.lt_or_eq_of_le (Nat.le_of_lt_succ hp) with hlt | rfl
    · rw [hslot.2 _ (mod_ne_of_lt hlt (by omega)).symm, ih hlt (by omega),
        List.getElem?_append_left hlt]
    · rw [hslot.1, List.getElem?_append_right (Nat.le_refl _), Nat.sub_self]
      rfl

/-- Each slot that was written has a last position that leads to it, less than a turn back. -/
theorem exists_last_position {i n length : Nat} (hi : i < n) (hl : i < length) :
    ∃ position, IsGreatest {j | j < length ∧ j % n = i} position ∧ length ≤ position + n := by
  have hturns := Nat.div_add_mod (length - 1 - i) n
  have hrest := Nat.mod_lt (length - 1 - i) (Nat.zero_lt_of_lt hi)
  have hmod : (i + n * ((length - 1 - i) / n)) % n = i := by
    rw [Nat.add_mul_mod_self_left, Nat.mod_eq_of_lt hi]
  refine ⟨i + n * ((length - 1 - i) / n), ⟨⟨by omega, hmod⟩, ?_⟩, by omega⟩
  rintro later ⟨hlt, hlater⟩
  by_contra hnot
  exact mod_ne_of_lt (Nat.not_le.mp hnot) (by omega) (hlater.trans hmod.symm)

theorem fill_pushAll (h : 0 < capacity) (words : List UInt32) :
    ((empty : RollingWindow capacity).pushAll words).fill = .steady ↔
      capacity ≤ words.length := by
  rw [RollingWindow.fill, size_pushAll h words]
  split
  · next hs => exact ⟨fun _ => by omega, fun _ => rfl⟩
  · next hs => exact ⟨fun hf => absurd hf (by decide), fun hle => absurd hle (by omega)⟩

/-- A window that holds the last of these words: in order, in its slots, in its sum and in its
mean. -/
structure HoldsLast (w : RollingWindow capacity) (words : List UInt32) : Prop where
  toList : w.toList = words.drop (words.length - capacity)
  size : w.size = min capacity words.length
  slot : ∀ i < w.size, ∃ position,
    IsGreatest {j | j < words.length ∧ j % capacity = i} position ∧
      w.slots[i]? = words[position]?
  sum : w.sum.toNat = w.values.sum
  fill : w.fill = .steady ↔ capacity ≤ words.length
  mean_none : w.mean = none ↔ words = []
  mean_some : words ≠ [] → ∃ mean, w.mean = some mean ∧ mean.toNat = w.sum.toNat / w.size ∧
    ∃ least greatest, w.values.min? = some least ∧ w.values.max? = some greatest ∧
      least ≤ mean.toNat ∧ mean.toNat ≤ greatest

theorem holdsLast_pushAll (h : 0 < capacity) (hc : capacity ≤ 2 ^ 32) (words : List UInt32) :
    ((empty : RollingWindow capacity).pushAll words).HoldsLast words := by
  obtain ⟨hring, hlist⟩ := toList_pushAll h words
  have hsize := size_pushAll h words
  have hslots : ∀ position < words.length, words.length ≤ position + capacity →
      ((empty : RollingWindow capacity).pushAll words).slots[position % capacity]? =
        words[position]? := fun _ => getElem?_slots_pushAll h words
  have hsums := sumsUp_pushAll h words
  have hfill := fill_pushAll h words
  generalize (empty : RollingWindow capacity).pushAll words = w at *
  have hsum := hsums.exact hring hc
  have hmean : words ≠ [] → ∃ mean, w.mean = some mean ∧
      mean.toNat = w.values.sum / w.size := by
    intro hne
    have hlength := List.length_pos_iff.mpr hne
    obtain ⟨mean, hm, hq⟩ := hsums.mean (by omega)
    exact ⟨mean, hm, by rw [hq, Nat.mod_eq_of_lt (sum_values_lt hc hring.size_le)]⟩
  refine ⟨hlist, hsize, fun i hi => ?_, hsum, hfill, ⟨fun hm => ?_, fun he => ?_⟩, fun hne => ?_⟩
  · have hin : i < capacity := by omega
    have hwritten : i < words.length := by omega
    obtain ⟨position, hgreatest, hlast⟩ := exists_last_position hin hwritten
    refine ⟨position, hgreatest, ?_⟩
    obtain ⟨hp, hmod⟩ := hgreatest.1
    rw [← hslots position hp hlast, hmod]
  · by_contra hne
    obtain ⟨mean, hs, -⟩ := hmean hne
    rw [hm] at hs
    cases hs
  · exact mean_of_empty (by rw [hsize, he]; exact Nat.min_zero _)
  · obtain ⟨mean, hm, hq⟩ := hmean hne
    have hlength := List.length_pos_iff.mpr hne
    have hvalues : w.values ≠ [] := by
      rw [← List.length_pos_iff, length_values]
      omega
    obtain ⟨least, greatest, hmin, hmax, hlow, hhigh⟩ := exists_min_max_mean hvalues
    rw [length_values, ← hq] at hlow hhigh
    exact ⟨mean, hm, by rw [hq, hsum], least, greatest, hmin, hmax, hlow, hhigh⟩

/-- After any stream a window holds its last words, with their exact sum and mean, no push takes
the sum below zero or past a double word, and a push answers how the window stands after it. -/
theorem window_holds_last (h : 0 < capacity) (hc : capacity ≤ 2 ^ 32) (words : List UInt32) :
    ((empty : RollingWindow capacity).pushAll words).HoldsLast words ∧
      ∀ word, ((empty : RollingWindow capacity).pushAll words).PushExact word ∧
        ((empty : RollingWindow capacity).pushAll words).roll word =
          (((empty : RollingWindow capacity).pushAll (words ++ [word])).fill,
            (empty : RollingWindow capacity).pushAll (words ++ [word])) := by
  refine ⟨holdsLast_pushAll h hc words, fun word => ⟨?_, ?_⟩⟩
  · exact (toList_pushAll h words).1.pushExact (sumsUp_pushAll h words) hc word
  · rw [pushAll_snoc]
    rfl

/-- Three slots that the stream has gone around once, and a largest word that follows. -/
theorem window_holds_last_around :
    0 < 3 ∧ 3 ≤ 2 ^ 32 ∧
      ((empty : RollingWindow 3).pushAll [10, 20, 30, 40]).HoldsLast [10, 20, 30, 40] ∧
      ((empty : RollingWindow 3).pushAll [10, 20, 30, 40]).PushExact 4294967295 := by
  have hwindow := window_holds_last (by decide : 0 < 3) (by decide) [10, 20, 30, 40]
  exact ⟨by decide, by decide, hwindow.1, (hwindow.2 4294967295).1⟩

end RollingWindow

end EnergyMeter
