import Vissr.Text

/-! The ring buffers of the curve logs (`curvelog.go`), read by the distance from the latest
element. -/

namespace Vissr.ServiceMgr

structure RingElement where
  value : Str := []
  timestamp : Str := []
  deriving DecidableEq

/-- `head` is written next. `tail` does not go around the ring, and can be negative. -/
structure RingBuffer where
  bufSize : Nat
  ringElem : List RingElement
  head : Nat
  tail : Int
  length_ringElem : ringElem.length = bufSize
  head_lt : head < bufSize

def createRingBuffer (bufSize : Nat) (positive : 0 < bufSize) : RingBuffer where
  bufSize := bufSize
  ringElem := List.replicate bufSize {}
  head := 0
  tail := 0
  length_ringElem := List.length_replicate
  head_lt := positive

variable (aRingBuffer : RingBuffer)

def setRingTail (tail : Nat) : RingBuffer :=
  { aRingBuffer with tail := aRingBuffer.head - (tail + 1) }

def writeRing (element : RingElement) : RingBuffer where
  bufSize := aRingBuffer.bufSize
  ringElem := aRingBuffer.ringElem.set aRingBuffer.head element
  head := if aRingBuffer.head + 1 = aRingBuffer.bufSize then 0 else aRingBuffer.head + 1
  tail := aRingBuffer.tail
  length_ringElem := by rw [List.length_set, aRingBuffer.length_ringElem]
  head_lt := by
    have := aRingBuffer.head_lt
    split_ifs <;> omega

/-- No reader goes further back than the ring is long. -/
def readRing (headOffset : Nat) : RingElement :=
  let currentHead : Int := aRingBuffer.head - (headOffset + 1)
  let currentHead := if currentHead < 0 then currentHead + aRingBuffer.bufSize else currentHead
  aRingBuffer.ringElem.getD currentHead.toNat {}

def getNumOfPopulatedRingElements : Int :=
  let head : Int := aRingBuffer.head
  let head := if head < aRingBuffer.tail then head + aRingBuffer.bufSize else head
  head - aRingBuffer.tail

variable (ring : RingBuffer) (element : RingElement)

@[simp] theorem bufSize_writeRing : (writeRing ring element).bufSize = ring.bufSize := rfl

@[simp] theorem bufSize_setRingTail (tail : Nat) : (setRingTail ring tail).bufSize = ring.bufSize :=
  rfl

@[simp] theorem head_setRingTail (tail : Nat) : (setRingTail ring tail).head = ring.head := rfl

theorem tail_setRingTail (tail : Nat) : (setRingTail ring tail).tail = ring.head - (tail + 1) := rfl

theorem readRing_eq {headOffset slot : Nat} (below : slot < ring.bufSize)
    (place : slot + headOffset + 1 = ring.head ∨ slot + headOffset + 1 = ring.head + ring.bufSize) :
    readRing ring headOffset = ring.ringElem.getD slot {} := by
  simp only [readRing]
  obtain place | place := place
  · rw [if_neg (by omega)]
    congr 1
    omega
  · rw [if_pos (by omega)]
    congr 1
    omega

theorem head_writeRing : (writeRing ring element).head =
    if ring.head + 1 = ring.bufSize then 0 else ring.head + 1 := rfl

theorem readRing_writeRing_zero : readRing (writeRing ring element) 0 = element := by
  have inside := ring.head_lt
  have size := ring.length_ringElem
  rw [@readRing_eq (writeRing ring element) 0 ring.head]
  · rw [writeRing, List.getD_eq_getElem?_getD, List.getElem?_set_self (by omega), Option.getD_some]
  · exact inside
  · rw [head_writeRing, bufSize_writeRing]
    split_ifs <;> omega

theorem readRing_writeRing_succ {headOffset : Nat} (inside : headOffset + 1 < ring.bufSize) :
    readRing (writeRing ring element) (headOffset + 1) = readRing ring headOffset := by
  have below := ring.head_lt
  have place : ∃ slot, slot < ring.bufSize ∧ slot ≠ ring.head ∧ (slot + headOffset + 1 = ring.head ∨
        slot + headOffset + 1 = ring.head + ring.bufSize) := by
    by_cases back : headOffset + 1 ≤ ring.head
    · exact ⟨ring.head - (headOffset + 1), by omega, by omega, by omega⟩
    · exact ⟨ring.head + ring.bufSize - (headOffset + 1), by omega, by omega, by omega⟩
  obtain ⟨slot, small, other, place⟩ := place
  rw [readRing_eq ring small place, @readRing_eq (writeRing ring element) (headOffset + 1) slot]
  · rw [writeRing, List.getD_eq_getElem?_getD, List.getD_eq_getElem?_getD,
      List.getElem?_set_ne (Ne.symm other)]
  · exact small
  · rw [head_writeRing, bufSize_writeRing]
    split_ifs <;> omega

theorem getNumOfPopulatedRingElements_writeRing (tailLow : ring.tail < ring.bufSize)
    (room : getNumOfPopulatedRingElements ring + 1 < ring.bufSize) :
    getNumOfPopulatedRingElements (writeRing ring element) =
      getNumOfPopulatedRingElements ring + 1 := by
  have below := ring.head_lt
  have sameTail : (writeRing ring element).tail = ring.tail := rfl
  simp only [getNumOfPopulatedRingElements, sameTail, head_writeRing, bufSize_writeRing] at room ⊢
  split_ifs at room ⊢ <;> omega

theorem getNumOfPopulatedRingElements_setRingTail (tail : Nat) :
    getNumOfPopulatedRingElements (setRingTail ring tail) = tail + 1 := by
  simp only [getNumOfPopulatedRingElements, tail_setRingTail, head_setRingTail, bufSize_setRingTail]
  split_ifs <;> omega

theorem tail_setRingTail_lt (tail : Nat) :
    (setRingTail ring tail).tail < (setRingTail ring tail).bufSize := by
  have below := ring.head_lt
  rw [tail_setRingTail, bufSize_setRingTail]
  omega

end Vissr.ServiceMgr
