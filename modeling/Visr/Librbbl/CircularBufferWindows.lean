import Mathlib.Algebra.Ring.Int.Defs
import Visr.Librbbl.CircularBuffer

/-!
# The windows of a circular buffer

Whatever the sizes of the blocks written to a circular buffer, a read pointer gives
access to the latest samples of its channel.

A buffer of length zero is accepted by the constructor.  Nothing can be stored in it,
but an empty block can be written, and then the write index is reduced modulo the
allocated length, which is zero.

## Main results

* `CircularBuffer.Records.performAll` — the invariant over any sequence of writes.
* `CircularBuffer.returnsWindows_iff` — when the window law holds.
-/

namespace Visr

open Signal (past ofList latest)

variable {α : Type}

namespace CircularBuffer

/-- A block of samples that a buffer of the given length can take. -/
structure Block (α : Type) (length : ℕ) where
  samples : ℕ → ℕ → α
  numberOfSamples : ℕ
  numberOfSamples_le : numberOfSamples ≤ length

/-- The ways to write a block. -/
inductive WriteOperation (α : Type) (length : ℕ)
  /-- `write()`, with channel pointers or with a channel stride. -/
  | write (block : Block α length)
  /-- `write()`, with a matrix object. -/
  | writeMatrix (block : Block α length)
  /-- The block is stored behind the pointers of `getWritePointers()` and committed. -/
  | commitWrite (block : Block α length)

def WriteOperation.block {length : ℕ} : WriteOperation α length → Block α length
  | write block => block
  | writeMatrix block => block
  | commitWrite block => block

/-- One write operation for all channels of a buffer. -/
def perform {length : ℕ} (b : CircularBuffer α) :
    WriteOperation α length → Except Exception (CircularBuffer α)
  | .write block => b.write block.samples b.numberOfChannels block.numberOfSamples
  | .writeMatrix block => b.writeMatrix block.samples b.numberOfChannels block.numberOfSamples
  | .commitWrite block =>
    (b.store block.numberOfSamples block.samples).commitWrite block.numberOfSamples

/-- What the constructor makes for a length. -/
inductive Constructed (α : Type)
  /-- A buffer of length zero.  It has no position for its write index. -/
  | empty (numberOfChannels : ℕ)
  | buffer (b : CircularBuffer α)

/-- The constructor.  The array of the samples refuses an alignment that is not a power of
two. -/
def construct [Zero α] (numberOfChannels length alignment : ℕ) :
    Except Exception (Constructed α) :=
  if alignment ≠ 0 ∧ alignmentIsPowerOfTwo alignment = false then
    .error (.invalidArgument "AlignedArray: alignment values must be integer powers of 2")
  else if h : 0 < length then .ok (.buffer (create numberOfChannels length alignment h))
  else .ok (.empty numberOfChannels)

namespace Constructed

def perform {length : ℕ} : Constructed α → WriteOperation α length → Except Abort (Constructed α)
  -- the dimensions are right, and `advanceWriteIndex()` divides by zero
  | empty _, _ => .error .undefined
  | buffer b, operation =>
    match b.perform operation with
    | .error e => .error (.exception e)
    | .ok b => .ok (.buffer b)

/-- A sequence of write operations. -/
def performAll {length : ℕ} (c : Constructed α) (operations : List (WriteOperation α length)) :
    Except Abort (Constructed α) :=
  operations.foldlM perform c

/-- The `delay` samples behind the read pointer of a channel. -/
def window (c : Constructed α) (channelIndex delay : ℕ) : List α :=
  match c with
  | empty _ => []
  | buffer b => (List.range delay).map (b.getReadPointer channelIndex delay).data

end Constructed

/-- All samples that were written to a channel, in order. -/
def history {length : ℕ} (operations : List (WriteOperation α length)) (channel : ℕ) : List α :=
  operations.flatMap fun operation =>
    (List.range operation.block.numberOfSamples).map (operation.block.samples channel)

/-- After the write operations, the window for every delay of up to the length consists of
the last samples written. -/
def Constructed.ReturnsWindows [Zero α] (c : Constructed α) (numberOfChannels : ℕ) {length : ℕ}
    (operations : List (WriteOperation α length)) : Prop :=
  ∃ c', c.performAll operations = .ok c' ∧
    ∀ channel < numberOfChannels, ∀ delay ≤ length,
      c'.window channel delay = latest (history operations channel) delay

@[simp] theorem history_nil {length : ℕ} (channel : ℕ) :
    history ([] : List (WriteOperation α length)) channel = [] := rfl

/-! ### One write operation -/

/-- All ways to write a block do the same. -/
theorem perform_eq {b : CircularBuffer α} {length : ℕ} (hlength : b.length = length)
    (operation : WriteOperation α length) :
    b.perform operation = .ok ((b.store operation.block.numberOfSamples
      operation.block.samples).advanceWriteIndex operation.block.numberOfSamples) := by
  subst hlength
  cases operation with
  | write block => exact write_of_le block.numberOfSamples_le block.samples
  | writeMatrix block =>
    simp [perform, writeMatrix, writeChecked, WriteOperation.block, block.numberOfSamples_le]
  | commitWrite block => exact commitWrite_store block.numberOfSamples_le block.samples

variable [Zero α]

/-- The buffer has recorded the samples in the lists. -/
structure Records (b : CircularBuffer α) (numberOfChannels length : ℕ)
    (recorded : ℕ → List α) (time : ℕ) : Prop where
  numberOfChannels_eq : b.numberOfChannels = numberOfChannels
  length_eq : b.length = length
  time_eq : ∀ ch, (recorded ch).length = time
  holds : b.Holds (fun ch => ofList (recorded ch)) time

theorem Records.perform {b : CircularBuffer α} {numberOfChannels length time : ℕ}
    {recorded : ℕ → List α} (hb : b.Records numberOfChannels length recorded time)
    (operation : WriteOperation α length) :
    ∃ b', b.perform operation = .ok b' ∧ b'.Records numberOfChannels length
      (fun ch => recorded ch ++ history [operation] ch)
      (time + operation.block.numberOfSamples) := by
  have hfits := operation.block.numberOfSamples_le
  refine ⟨_, perform_eq hb.length_eq operation, ⟨hb.numberOfChannels_eq, hb.length_eq, ?_, ?_⟩⟩
  · intro ch
    simp [hb.time_eq ch, history]
  · -- the samples recorded so far are those of the longer signal
    have hlonger : b.Holds (fun ch => ofList (recorded ch ++ history [operation] ch)) time := by
      apply hb.holds.congr
      intro ch t ht
      rw [← hb.time_eq ch] at ht
      exact (Signal.ofList_append_of_lt ht _).symm
    apply hlonger.store_advance (Nat.le_trans hfits (hb.length_eq ▸ b.length_le))
    intro ch k _ hk
    rw [← hb.time_eq ch, Signal.ofList_append_length]
    simp [history, ofList, hk]

/-! ### Sequences of write operations -/

theorem Records.performAll {b : CircularBuffer α} {numberOfChannels length time : ℕ}
    {recorded : ℕ → List α} (hb : b.Records numberOfChannels length recorded time)
    (operations : List (WriteOperation α length)) :
    ∃ b' time', (Constructed.buffer b).performAll operations = .ok (.buffer b') ∧
      b'.Records numberOfChannels length (fun ch => recorded ch ++ history operations ch)
        time' := by
  induction operations generalizing b recorded time with
  | nil => exact ⟨b, time, rfl, by simpa using hb⟩
  | cons operation operations ih =>
    obtain ⟨b', hperform, hb'⟩ := hb.perform operation
    obtain ⟨b'', time'', hrest, hb''⟩ := ih hb'
    refine ⟨b'', time'', ?_, ?_⟩
    · rw [Constructed.performAll, List.foldlM_cons, Constructed.perform, hperform]
      exact hrest
    · simpa [history] using hb''

theorem records_create (numberOfChannels length alignment : ℕ) (h : 0 < length) :
    (create numberOfChannels length alignment h : CircularBuffer α).Records numberOfChannels length
      (fun _ => []) 0 where
  numberOfChannels_eq := rfl
  length_eq := rfl
  time_eq _ := rfl
  holds := holds_create numberOfChannels length alignment h _

/-- The window law for what has been recorded. -/
theorem Records.window {b : CircularBuffer α} {numberOfChannels length time : ℕ}
    {recorded : ℕ → List α} (hb : b.Records numberOfChannels length recorded time)
    {ch d : ℕ} (hch : ch < numberOfChannels) (hd : d ≤ length) :
    (Constructed.buffer b).window ch d = latest (recorded ch) d := by
  rw [Signal.latest_eq_map_past, hb.time_eq]
  apply List.map_congr_left
  intro k hk
  rw [← hb.numberOfChannels_eq] at hch
  rw [← hb.length_eq] at hd
  exact hb.holds.readAt hch (Nat.le_trans hd b.length_le) (List.mem_range.mp hk)

/-- **When the window law holds.**  It fails for writing empty blocks to a buffer of length
zero. -/
theorem returnsWindows_iff {numberOfChannels length alignment : ℕ} {c : Constructed α}
    (hconstruct : construct numberOfChannels length alignment = .ok c)
    (operations : List (WriteOperation α length)) :
    c.ReturnsWindows numberOfChannels operations ↔ 0 < length ∨ operations = [] := by
  unfold construct at hconstruct
  split at hconstruct
  · cases hconstruct
  split at hconstruct
  next hlength =>
    obtain rfl := Except.ok.inj hconstruct
    refine iff_of_true ?_ (.inl hlength)
    obtain ⟨b, time, hall, hb⟩ :=
      (records_create numberOfChannels length alignment hlength).performAll operations
    exact ⟨_, hall, fun ch hch d hd => by simpa using hb.window hch hd⟩
  next hlength =>
    obtain rfl := Except.ok.inj hconstruct
    rw [or_iff_right hlength]
    cases operations with
    | nil =>
      refine iff_of_true ⟨_, rfl, fun ch _ d hd => ?_⟩ rfl
      obtain rfl : d = 0 := by omega
      rfl
    | cons operation operations =>
      -- the first operation has no result
      refine iff_of_false ?_ (List.cons_ne_nil _ _)
      rintro ⟨c', hall, -⟩
      cases hall

/-- Two blocks of two samples, the second of which crosses the end of a buffer of length
three. -/
theorem returnsWindows_twoBlocks :
    construct 1 3 0 = .ok (.buffer (create 1 3 0 (by decide) : CircularBuffer ℤ)) ∧
      (Constructed.buffer (create 1 3 0 (by decide) : CircularBuffer ℤ)).ReturnsWindows 1
        [.write (⟨fun _ k => k + 1, 2, by decide⟩ : Block ℤ 3),
          .commitWrite ⟨fun _ k => k + 3, 2, by decide⟩] :=
  have hconstruct : construct 1 3 0 =
      .ok (.buffer (create 1 3 0 (by decide) : CircularBuffer ℤ)) := rfl
  ⟨hconstruct, (returnsWindows_iff hconstruct _).mpr (.inl (by decide))⟩

/-- A buffer of length zero is constructed, and an empty block is no longer than that. -/
theorem not_returnsWindows_emptyBlock :
    ¬∀ (numberOfChannels length alignment : ℕ) (c : Constructed ℤ),
      construct numberOfChannels length alignment = .ok c →
      ∀ operations : List (WriteOperation ℤ length),
        c.ReturnsWindows numberOfChannels operations := by
  intro h
  obtain ⟨c', hall, -⟩ := h 1 0 0 (.empty 1) rfl [.write ⟨fun _ _ => 0, 0, Nat.le_refl 0⟩]
  cases hall

end CircularBuffer

end Visr
