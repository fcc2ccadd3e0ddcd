import EnergyMeter.Proofs.StageHistory

/-!
# What a rolling window holds

The ring of a window is a way to store a list: while slots are left a word goes to its end, and
afterwards the first word leaves for each new one. So a window holds the last words that were
pushed, as many as it has slots, in the order in which they came.
-/
namespace EnergyMeter

namespace RollingWindow

variable {capacity : Nat}

def pushAll (w : RollingWindow capacity) (words : List UInt32) : RollingWindow capacity :=
  words.foldl push w

@[simp] theorem pushAll_snoc (w : RollingWindow capacity) (words : List UInt32) (word : UInt32) :
    w.pushAll (words ++ [word]) = (w.pushAll words).push word := by
  simp only [pushAll, List.foldl_append, List.foldl_cons, List.foldl_nil]

/-- The next word goes to the first slot that does not exist yet, or goes around. -/
structure Ring (w : RollingWindow capacity) : Prop where
  size_le : w.size ≤ capacity
  next_lt : w.next < capacity
  next_eq : w.size < capacity → w.next = w.size

theorem ring_empty (h : 0 < capacity) : (empty : RollingWindow capacity).Ring :=
  ⟨Nat.zero_le _, h, fun _ => rfl⟩

theorem length_toList (w : RollingWindow capacity) : w.toList.length = w.size := by
  rw [toList, List.length_append, List.length_drop, List.length_take, size, Array.length_toList]
  omega

theorem fill_filling {w : RollingWindow capacity} (h : w.size < capacity) : w.fill = .filling :=
  if_neg (Nat.ne_of_lt h)

theorem fill_steady {w : RollingWindow capacity} (h : w.size = capacity) : w.fill = .steady :=
  if_pos h

theorem push_of_filling {w : RollingWindow capacity} (h : w.size < capacity) (word : UInt32) :
    w.push word = ⟨w.slots.push word, (w.next + 1) % capacity, w.sum + word.toUInt64⟩ := by
  simp only [push, fill_filling h]

theorem push_of_steady {w : RollingWindow capacity} (h : w.size = capacity) (word : UInt32) :
    w.push word = ⟨w.slots.setIfInBounds w.next word, (w.next + 1) % capacity,
      w.sum - w.oldest.toUInt64 + word.toUInt64⟩ := by
  simp only [push, fill_steady h]

/-- The place after one of a ring is the next, or the first again. -/
theorem next_cases {i n : Nat} (h : i < n) :
    (i + 1 < n ∧ (i + 1) % n = i + 1) ∨ (i + 1 = n ∧ (i + 1) % n = 0) := by
  rcases Nat.lt_or_ge (i + 1) n with hlt | hge
  · exact .inl ⟨hlt, Nat.mod_eq_of_lt hlt⟩
  · obtain rfl : n = i + 1 := by omega
    exact .inr ⟨rfl, Nat.mod_self _⟩

/-- Read from a slot on and around, a list with a new word in that slot ends with the word. -/
theorem rotate_set {slots : List UInt32} {i : Nat} (h : i < slots.length) (word : UInt32) :
    (slots.set i word).drop (i + 1) ++ (slots.set i word).take (i + 1) =
      (slots.drop i ++ slots.take i).tail ++ [word] := by
  have hset : slots.set i word = slots.take i ++ [word] ++ slots.drop (i + 1) := by
    rw [List.set_eq_take_append_cons_drop, if_pos h, List.append_assoc]
    rfl
  have hlen : (slots.take i ++ [word]).length = i + 1 := by
    rw [List.length_append, List.length_take, List.length_singleton]
    omega
  have hfirst : slots.drop i = slots[i] :: slots.drop (i + 1) := List.drop_eq_getElem_cons h
  rw [hset, List.drop_left' hlen, List.take_left' hlen, hfirst, List.cons_append, List.tail_cons,
    List.append_assoc]

section

variable {w : RollingWindow capacity} (h : w.Ring)

include h

theorem Ring.push_filling (hs : w.size < capacity) (word : UInt32) :
    (w.push word).Ring ∧ (w.push word).toList = w.toList ++ [word] := by
  have hp : w.push word =
      ⟨w.slots.push word, (w.size + 1) % capacity, w.sum + word.toUInt64⟩ := by
    rw [push_of_filling hs, h.next_eq hs]
  have hl : (w.slots.push word).toList.length = w.size + 1 := Array.size_push _
  have hlist : w.toList = w.slots.toList := by
    rw [toList, h.next_eq hs, size, ← Array.length_toList, List.drop_length, List.take_length,
      List.nil_append]
  have hpushed : (w.slots.push word).toList = w.toList ++ [word] := by
    rw [hlist, Array.toList_push]
  rcases next_cases hs with ⟨hlt, hm⟩ | ⟨heq, hm⟩
  · rw [hp, hm]
    refine ⟨⟨Nat.le_of_lt (hl ▸ hlt), hlt, fun _ => hl.symm⟩, ?_⟩
    rw [toList, ← hpushed, ← hl, List.drop_length, List.take_length, List.nil_append]
  · rw [hp, hm]
    refine ⟨⟨Nat.le_of_eq (hl.trans heq), Nat.zero_lt_of_lt hs, fun hlt => ?_⟩, ?_⟩
    · exact absurd (hl.trans heq) (Nat.ne_of_lt hlt)
    · rw [toList, List.drop_zero, List.take_zero, List.append_nil, hpushed]

theorem Ring.push_steady (hs : w.size = capacity) (word : UInt32) :
    (w.push word).Ring ∧ (w.push word).toList = w.toList.tail ++ [word] := by
  have hp := push_of_steady hs word
  have hl : (w.slots.setIfInBounds w.next word).size = capacity := by
    rw [Array.size_setIfInBounds]
    exact hs
  have hnext : w.next < w.slots.toList.length := by
    rw [Array.length_toList, ← size, hs]
    exact h.next_lt
  have hset := rotate_set hnext word
  rcases next_cases h.next_lt with ⟨hlt, hm⟩ | ⟨heq, hm⟩
  · rw [hp, hm]
    refine ⟨⟨Nat.le_of_eq hl, hlt, fun hlt => absurd hl (Nat.ne_of_lt hlt)⟩, ?_⟩
    rw [toList, Array.toList_setIfInBounds]
    exact hset
  · rw [hp, hm]
    refine ⟨⟨Nat.le_of_eq hl, Nat.zero_lt_of_lt h.next_lt,
      fun hlt => absurd hl (Nat.ne_of_lt hlt)⟩, ?_⟩
    -- The word went to the last slot, so the rotated list is the slots in storage order.
    have hall : (w.slots.toList.set w.next word).length = w.next + 1 := by
      rw [List.length_set, Array.length_toList, ← size, hs, heq]
    rw [← hall, List.drop_length, List.take_length, List.nil_append] at hset
    rw [toList, List.drop_zero, List.take_zero, List.append_nil, Array.toList_setIfInBounds]
    exact hset

end

/-- A window that started empty holds the last words, oldest first. -/
theorem toList_pushAll (h : 0 < capacity) (words : List UInt32) :
    ((empty : RollingWindow capacity).pushAll words).Ring ∧
      ((empty : RollingWindow capacity).pushAll words).toList =
        words.drop (words.length - capacity) := by
  induction words using List.reverseRecOn with
  | nil => exact ⟨ring_empty h, List.drop_nil.symm⟩
  | append_singleton words word ih =>
    obtain ⟨hring, hlist⟩ := ih
    have hsize : ((empty : RollingWindow capacity).pushAll words).size =
        words.length - (words.length - capacity) := by
      rw [← length_toList, hlist, List.length_drop]
    rw [pushAll_snoc, List.length_append, List.length_singleton]
    rcases Nat.lt_or_ge words.length capacity with hlt | hge
    · obtain ⟨hnext, hmore⟩ := hring.push_filling (by omega) word
      refine ⟨hnext, ?_⟩
      have h0 : words.length - capacity = 0 := by omega
      have h1 : words.length + 1 - capacity = 0 := by omega
      rw [hmore, hlist, h0, h1]
      rfl
    · obtain ⟨hnext, hmore⟩ := hring.push_steady (by omega) word
      refine ⟨hnext, ?_⟩
      have h1 : words.length + 1 - capacity = words.length - capacity + 1 := by omega
      rw [hmore, hlist, List.tail_drop, h1, List.drop_append_of_le_length (by omega)]

end RollingWindow

namespace RunningRms

variable {capacity : Nat}

@[simp] theorem window_push (r : RunningRms capacity) (raw : Int16) :
    (r.push raw).value.window = r.window.push (scaledSquare raw) := by
  simp only [push]
  cases r.window.fill with
  | filling => cases (r.window.push (scaledSquare raw)).fill <;> rfl
  | steady => rfl

theorem window_pushAll (r : RunningRms capacity) (raws : List Int16) :
    (r.pushAll raws).window = r.window.pushAll (raws.map scaledSquare) := by
  induction raws using List.reverseRecOn with
  | nil => rfl
  | append_singleton raws raw ih =>
    simp [ih]

/-- The window of a channel holds the squares of its last samples, oldest first. -/
theorem toList_window (h : 0 < capacity) (ratio : UInt32) (raws : List Int16) :
    ((ofRatio ratio : RunningRms capacity).pushAll raws).window.toList =
      (raws.drop (raws.length - capacity)).map scaledSquare := by
  rw [window_pushAll, List.map_drop]
  have hw := (RollingWindow.toList_pushAll h (raws.map scaledSquare)).2
  rwa [List.length_map] at hw

end RunningRms

end EnergyMeter
