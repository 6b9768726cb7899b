import Visr.Libefl.VectorFunctions
import Visr.Library.Signal

/-!
# Circular buffers

A multichannel ring buffer that gives contiguous access to its whole length: every
sample is stored twice, one allocated length apart.

## Main results

* `Holds.store_advance` — writing the next samples of the signal.
* `Holds.readAt` — the window law: a read pointer for delay `d` gives access to the last
  `d` samples.
-/

namespace Visr

open Signal (past)

variable {α : Type}

/-- A circular buffer.  A row of `buffer` is one channel; only its first
`2 * allocatedLength` elements belong to the buffer. -/
structure CircularBuffer (α : Type) where
  numberOfChannels : ℕ
  length : ℕ
  allocatedLength : ℕ
  buffer : ℕ → ℕ → α
  writeHeadIndex : ℕ
  length_le : length ≤ allocatedLength
  head_lt : writeHeadIndex < allocatedLength

namespace CircularBuffer

/-- A buffer filled with zeros.  The length has to be positive for the write index to be
reduced modulo the allocated length. -/
def create [Zero α] (numberOfChannels length alignment : ℕ) (h : 0 < length) :
    CircularBuffer α where
  numberOfChannels := numberOfChannels
  length := length
  allocatedLength := nextAlignedSize length alignment
  buffer _ _ := 0
  writeHeadIndex := 0
  length_le := le_nextAlignedSize length alignment
  head_lt := Nat.lt_of_lt_of_le h (le_nextAlignedSize length alignment)

/-- The effect of writing `numberOfSamples` samples to each channel at the write
pointers. -/
def store (b : CircularBuffer α) (numberOfSamples : ℕ) (data : ℕ → ℕ → α) : CircularBuffer α :=
  { b with
    buffer := fun ch p =>
      if ch < b.numberOfChannels ∧ b.writeHeadIndex ≤ p ∧ p < b.writeHeadIndex + numberOfSamples
      then data ch (p - b.writeHeadIndex)
      else b.buffer ch p }

/-- Copies the samples just stored to the other half of the buffer, in two blocks if they
cross the middle, and advances the write index. -/
def advanceWriteIndex (b : CircularBuffer α) (advanceSamples : ℕ) : CircularBuffer α :=
  let firstBlockEnd := min (b.writeHeadIndex + advanceSamples) b.allocatedLength
  let samplesInFirstBlock := firstBlockEnd - b.writeHeadIndex
  let firstCopy : ℕ → ℕ → α := fun ch p =>
    if ch < b.numberOfChannels ∧ b.writeHeadIndex + b.allocatedLength ≤ p ∧
        p < b.writeHeadIndex + b.allocatedLength + samplesInFirstBlock
    then b.buffer ch (p - b.allocatedLength)
    else b.buffer ch p
  let remainingSamples := advanceSamples - samplesInFirstBlock
  let secondCopy : ℕ → ℕ → α := fun ch p =>
    if ch < b.numberOfChannels ∧ samplesInFirstBlock < advanceSamples ∧ p < remainingSamples
    then firstCopy ch (p + b.allocatedLength)
    else firstCopy ch p
  { b with
    buffer := secondCopy
    writeHeadIndex := (b.writeHeadIndex + advanceSamples) % b.allocatedLength
    head_lt := Nat.mod_lt _ (Nat.zero_lt_of_lt b.head_lt) }

/-- Finishes a write operation. -/
def commitWrite (b : CircularBuffer α) (numberOfElementsWritten : ℕ) :
    Except Exception (CircularBuffer α) :=
  if numberOfElementsWritten > b.length then
    .error (.invalidArgument ("The number of committed writen samples must not exceed " ++
      "the length of the circular buffer."))
  else .ok (b.advanceWriteIndex numberOfElementsWritten)

/-- The common part of the `write` methods, which check the dimensions, copy the data and
advance the write index. -/
def writeChecked (b : CircularBuffer α) (channelMessage lengthMessage : String)
    (data : ℕ → ℕ → α) (numberOfChannels numberOfSamples : ℕ) :
    Except Exception (CircularBuffer α) :=
  if numberOfChannels ≠ b.numberOfChannels then .error (.invalidArgument channelMessage)
  else if numberOfSamples > b.length then .error (.invalidArgument lengthMessage)
  else .ok ((b.store numberOfSamples data).advanceWriteIndex numberOfSamples)

/-- Writes the samples of an array of channel pointers, or of a matrix with a channel
stride. -/
def write (b : CircularBuffer α) (writeData : ℕ → ℕ → α)
    (numberOfChannels numberOfSamples : ℕ) : Except Exception (CircularBuffer α) :=
  b.writeChecked
    ("CircularBuffer::write(): The number of data channels differs from the number of " ++
      "channels in the circular buffer")
    ("CircularBuffer::write(): The number samples to be written exceeds the length of the " ++
      "circular buffer")
    writeData numberOfChannels numberOfSamples

/-- Writes a matrix object. -/
def writeMatrix (b : CircularBuffer α) (writeData : ℕ → ℕ → α)
    (numberOfRows numberOfColumns : ℕ) : Except Exception (CircularBuffer α) :=
  b.writeChecked
    ("CircularBuffer::write(): The number of matrix rows differs from the number of " ++
      "channels in the circular buffer")
    "CircularBuffer::write(): The number samples exceeds the length of the circular buffer"
    writeData numberOfRows numberOfColumns

/-- The element `k` positions behind the read pointer of a channel for a given delay. -/
def readAt (b : CircularBuffer α) (channelIndex delay k : ℕ) : α :=
  b.buffer channelIndex (b.allocatedLength + b.writeHeadIndex - delay + k)

/-- `CircularBuffer::getReadPointer()`.  The address is relative to the aligned base pointer. -/
def getReadPointer (b : CircularBuffer α) (channelIndex delay : ℕ) : Pointer α where
  address := channelIndex * (2 * b.allocatedLength) + (b.allocatedLength + b.writeHeadIndex - delay)
  data := b.readAt channelIndex delay

@[simp] theorem store_numberOfChannels (b : CircularBuffer α) (n : ℕ) (data : ℕ → ℕ → α) :
    (b.store n data).numberOfChannels = b.numberOfChannels := rfl

@[simp] theorem store_length (b : CircularBuffer α) (n : ℕ) (data : ℕ → ℕ → α) :
    (b.store n data).length = b.length := rfl

@[simp] theorem advanceWriteIndex_numberOfChannels (b : CircularBuffer α) (n : ℕ) :
    (b.advanceWriteIndex n).numberOfChannels = b.numberOfChannels := rfl

@[simp] theorem advanceWriteIndex_length (b : CircularBuffer α) (n : ℕ) :
    (b.advanceWriteIndex n).length = b.length := rfl

theorem commitWrite_store {b : CircularBuffer α} {n : ℕ} (h : n ≤ b.length)
    (data : ℕ → ℕ → α) :
    (b.store n data).commitWrite n = .ok ((b.store n data).advanceWriteIndex n) :=
  if_neg (Nat.not_lt.mpr h)

theorem write_of_le {b : CircularBuffer α} {numberOfSamples : ℕ} (h : numberOfSamples ≤ b.length)
    (data : ℕ → ℕ → α) : b.write data b.numberOfChannels numberOfSamples =
      .ok ((b.store numberOfSamples data).advanceWriteIndex numberOfSamples) := by
  unfold write writeChecked
  rw [if_neg (not_not.mpr rfl), if_neg (Nat.not_lt.mpr h)]

theorem eq_of_write_ok {b b' : CircularBuffer α} {data : ℕ → ℕ → α}
    {numberOfChannels numberOfSamples : ℕ}
    (h : b.write data numberOfChannels numberOfSamples = .ok b') :
    numberOfSamples ≤ b.length ∧
      b' = (b.store numberOfSamples data).advanceWriteIndex numberOfSamples := by
  unfold write writeChecked at h
  split at h
  · cases h
  · split at h
    · cases h
    next hle => exact ⟨Nat.not_lt.mp hle, (Except.ok.inj h).symm⟩

/-! ### One write operation -/

/-- The two halves of the buffer have the same contents. -/
def Mirrored (b : CircularBuffer α) : Prop :=
  ∀ ch p, ch < b.numberOfChannels → p < b.allocatedLength →
    b.buffer ch p = b.buffer ch (p + b.allocatedLength)

/-- The places of the sample `k` positions after the write index, in either half. -/
def Place (b : CircularBuffer α) (k p : ℕ) : Prop :=
  p = b.writeHeadIndex + k ∨ p = b.writeHeadIndex + k + b.allocatedLength ∨
    p + b.allocatedLength = b.writeHeadIndex + k

/-- The samples written are found in both halves afterwards. -/
theorem store_advance_of_lt {b : CircularBuffer α} {n ch k p : ℕ} (hn : n ≤ b.allocatedLength)
    (data : ℕ → ℕ → α) (hch : ch < b.numberOfChannels) (hp : p < 2 * b.allocatedLength)
    (hplace : b.Place k p) (hk : k < n) :
    ((b.store n data).advanceWriteIndex n).buffer ch p = data ch k := by
  have hhead := b.head_lt
  have hk' : b.writeHeadIndex + k - b.writeHeadIndex = k := by omega
  simp only [advanceWriteIndex, store]
  rcases hplace with h | h | h
  · -- the place the sample was stored at is not touched by the copies
    refine (if_neg (by omega)).trans ((if_neg (by omega)).trans ((if_pos (by omega)).trans ?_))
    rw [h, hk']
  · -- the first copy
    have hsub : p - b.allocatedLength = b.writeHeadIndex + k := by omega
    refine (if_neg (by omega)).trans ((if_pos (by omega)).trans ((if_pos (by omega)).trans ?_))
    rw [hsub, hk']
  · -- the second copy
    refine (if_pos (by omega)).trans ((if_neg (by omega)).trans ((if_pos (by omega)).trans ?_))
    rw [h, hk']

/-- The other samples are left as they are. -/
theorem store_advance_of_le {b : CircularBuffer α} {n ch k p : ℕ} (data : ℕ → ℕ → α)
    (hk : n ≤ k) (hkA : k < b.allocatedLength) (hplace : b.Place k p) :
    ((b.store n data).advanceWriteIndex n).buffer ch p = b.buffer ch p := by
  have hhead := b.head_lt
  simp only [advanceWriteIndex, store]
  unfold Place at hplace
  -- neither stored nor the target of a copy
  exact (if_neg (by omega)).trans ((if_neg (by omega)).trans (if_neg (by omega)))

/-- Every position of the lower half is the place of some sample, together with its
counterpart in the upper half. -/
theorem exists_place (b : CircularBuffer α) {p : ℕ} (hp : p < b.allocatedLength) :
    ∃ k, k < b.allocatedLength ∧ b.Place k p ∧ b.Place k (p + b.allocatedLength) := by
  have hhead := b.head_lt
  unfold Place
  by_cases h : b.writeHeadIndex ≤ p
  · exact ⟨p - b.writeHeadIndex, by omega, by omega, by omega⟩
  · exact ⟨p + b.allocatedLength - b.writeHeadIndex, by omega, by omega, by omega⟩

theorem Mirrored.store_advance {b : CircularBuffer α} {n : ℕ} (hb : b.Mirrored)
    (hn : n ≤ b.allocatedLength) (data : ℕ → ℕ → α) :
    ((b.store n data).advanceWriteIndex n).Mirrored := by
  intro ch p hch hp
  change ch < b.numberOfChannels at hch
  change p < b.allocatedLength at hp
  change _ = ((b.store n data).advanceWriteIndex n).buffer ch (p + b.allocatedLength)
  obtain ⟨k, hk, hlow, hhigh⟩ := b.exists_place hp
  by_cases hkn : k < n
  · rw [store_advance_of_lt hn data hch (by omega) hlow hkn,
      store_advance_of_lt hn data hch (by omega) hhigh hkn]
  · rw [store_advance_of_le data (by omega) hk hlow, store_advance_of_le data (by omega) hk hhigh]
    exact hb ch p hch hp

/-! ### The latest samples -/

variable [Zero α]

/-- The buffer holds the latest samples of a signal, of which `time` samples have been
written. -/
structure Holds (b : CircularBuffer α) (signal : ℕ → ℕ → α) (time : ℕ) : Prop where
  mirrored : b.Mirrored
  latest : ∀ ch age, ch < b.numberOfChannels → 1 ≤ age → age ≤ b.allocatedLength →
    b.buffer ch (b.allocatedLength + b.writeHeadIndex - age) = past (signal ch) time age

theorem holds_create (numberOfChannels length alignment : ℕ) (h : 0 < length)
    (signal : ℕ → ℕ → α) : (create numberOfChannels length alignment h).Holds signal 0 where
  mirrored _ _ _ _ := rfl
  latest _ _ _ hage _ := (Signal.past_of_lt _ hage).symm

/-- The samples of the future do not matter. -/
theorem Holds.congr {b : CircularBuffer α} {signal signal' : ℕ → ℕ → α} {time : ℕ}
    (hb : b.Holds signal time) (h : ∀ ch t, t < time → signal ch t = signal' ch t) :
    b.Holds signal' time where
  mirrored := hb.mirrored
  latest ch age hch hage hageA := by
    rw [hb.latest ch age hch hage hageA]
    exact Signal.past_congr (h ch) hage

/-- Writing the next samples of the signal. -/
theorem Holds.store_advance {b : CircularBuffer α} {signal : ℕ → ℕ → α} {time n : ℕ}
    (hb : b.Holds signal time) (hn : n ≤ b.allocatedLength) (data : ℕ → ℕ → α)
    (hdata : ∀ ch k, ch < b.numberOfChannels → k < n → data ch k = signal ch (time + k)) :
    ((b.store n data).advanceWriteIndex n).Holds signal (time + n) := by
  refine ⟨hb.mirrored.store_advance hn data, fun ch age hch hage hageA => ?_⟩
  change ch < b.numberOfChannels at hch
  change age ≤ b.allocatedLength at hageA
  have hhead := b.head_lt
  have hmod : (b.writeHeadIndex + n) % b.allocatedLength = b.writeHeadIndex + n ∨
      (b.writeHeadIndex + n) % b.allocatedLength + b.allocatedLength = b.writeHeadIndex + n := by
    rcases Nat.lt_or_ge (b.writeHeadIndex + n) b.allocatedLength with h | h
    · exact Or.inl (Nat.mod_eq_of_lt h)
    · right
      rw [Nat.mod_eq_sub_mod h, Nat.mod_eq_of_lt (by omega)]
      omega
  have hlt : (b.writeHeadIndex + n) % b.allocatedLength < b.allocatedLength :=
    Nat.mod_lt _ (by omega)
  change ((b.store n data).advanceWriteIndex n).buffer ch
    (b.allocatedLength + (b.writeHeadIndex + n) % b.allocatedLength - age) = _
  by_cases hnew : age ≤ n
  · -- one of the samples just written
    have hplace : b.Place (n - age)
        (b.allocatedLength + (b.writeHeadIndex + n) % b.allocatedLength - age) := by
      unfold Place
      omega
    rw [store_advance_of_lt hn data hch (by omega) hplace (by omega),
      hdata ch _ hch (by omega), Signal.past_of_le _ (by omega)]
    congr 1
    omega
  · -- an older sample, whose age was `age - n` before
    have hplace : b.Place (b.allocatedLength + n - age)
        (b.allocatedLength + (b.writeHeadIndex + n) % b.allocatedLength - age) := by
      unfold Place
      omega
    have hold := hb.latest ch (age - n) hch (by omega) (by omega)
    have hpast := Signal.past_add_add (signal ch) time (age - n) n
    rw [Nat.sub_add_cancel (by omega)] at hpast
    rw [store_advance_of_le data (by omega) (by omega) hplace, hpast, ← hold]
    rcases hmod with h | h
    · rw [h]
      congr 1
      omega
    · rw [hb.mirrored ch _ hch (by omega)]
      congr 1
      omega

/-- **The window law.**  Behind the read pointer for delay `d` lie the last `d` samples,
in their order. -/
theorem Holds.readAt {b : CircularBuffer α} {signal : ℕ → ℕ → α} {time : ℕ}
    (hb : b.Holds signal time) {ch d k : ℕ} (hch : ch < b.numberOfChannels)
    (hd : d ≤ b.allocatedLength) (hk : k < d) :
    b.readAt ch d k = past (signal ch) time (d - k) := by
  rw [← hb.latest ch (d - k) hch (by omega) (by omega), CircularBuffer.readAt]
  congr 1
  omega

end CircularBuffer

end Visr
