import EnergyMeter.Fault

/-!
# Rolling windows

A window of fixed capacity over a stream of words, with the sum of what it holds. The
words lie in a ring of slots: the next word goes to slot `next`, which holds the oldest
word once the ring is full. The view `toList` lists the words oldest first.

The ring stands for the history buffer of a library that the meter is built with. Of that buffer
it is assumed that it starts with no slot written, that a write goes to the slot after the last
one written and from the last slot back to the first, that it overwrites nothing before every
slot is written, and that it lists the written slots from the oldest to the newest. The sum and
the fill are the meter's own.
-/
namespace EnergyMeter

/-- Whether a window still fills or already drops a word for each new one. -/
inductive Fill where
  | filling
  | steady
  deriving DecidableEq, Repr

/-- The last `capacity` words of a stream and their sum. -/
structure RollingWindow (capacity : Nat) where
  /-- The ring, in storage order; only slots that were written exist. -/
  slots : Array UInt32 := #[]
  next : Nat := 0
  sum : UInt64 := 0
  deriving DecidableEq, Repr

namespace RollingWindow

variable {capacity : Nat}

def empty : RollingWindow capacity := {}

def size (w : RollingWindow capacity) : Nat := w.slots.size

/-- The words held, oldest first. -/
def toList (w : RollingWindow capacity) : List UInt32 :=
  w.slots.toList.drop w.next ++ w.slots.toList.take w.next

/-- A window is steady once every slot is written. -/
def fill (w : RollingWindow capacity) : Fill :=
  if w.size = capacity then .steady else .filling

/-- The word that a full ring gives up next, zero if there is none. -/
def oldest (w : RollingWindow capacity) : UInt32 := w.slots.getD w.next 0

/-- Adds a word; a full ring drops its oldest. -/
def push (w : RollingWindow capacity) (word : UInt32) : RollingWindow capacity :=
  let next := (w.next + 1) % capacity
  match w.fill with
  | .steady =>
    { slots := w.slots.setIfInBounds w.next word
      next
      sum := w.sum - w.oldest.toUInt64 + word.toUInt64 }
  | .filling => { slots := w.slots.push word, next, sum := w.sum + word.toUInt64 }

/-- Adds a word and answers how the window then stands. -/
def roll (w : RollingWindow capacity) (word : UInt32) : Fill × RollingWindow capacity :=
  let pushed := w.push word
  (pushed.fill, pushed)

/-- The mean of the words held, rounded down. There is none while the window is empty, nor
if the quotient were wider than a word. -/
def mean (w : RollingWindow capacity) : Option UInt32 :=
  if w.size = 0 then none
  else
    let quotient := w.sum.toNat / w.size
    if quotient < UInt32.size then some (UInt32.ofNat quotient) else none

def describe (w : RollingWindow capacity) : String :=
  Text.closedRecord "SampleWindow"
    [Text.field "entries" (Text.listed (w.slots.toList.map fun word => toString word.toNat)),
      Text.field "sum" (toString w.sum.toNat)]

end RollingWindow

end EnergyMeter
