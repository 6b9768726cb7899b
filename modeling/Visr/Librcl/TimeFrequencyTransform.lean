import Visr.Librbbl.CircularBuffer
import Visr.Librcl.TimeFrequencyInverseTransform
import Visr.Library.Writes

/-!
# The short-time Fourier transform

The frames of a period, which advance by one hop, are windowed and transformed.

## Main results

* `TimeFrequencyTransform.processFrames_ok_iff` — when the frames of a period do not fail.
* `TimeFrequencyTransform.run_spec` — what is known after some periods.
* `TimeFrequencyTransform.frames_iff` — **the frames are right if and only if all of them
  start at aligned positions.**
-/

namespace Visr

open Dft
open Signal (past)

variable {R C : Type} [Field R] [CommRing C] [Algebra R C]

/-- The component.  Of `calcBuffer`, which has `dftSize` elements, the ones behind the window
remain zero. -/
structure TimeFrequencyTransform (R C : Type) [Field R] [CommRing C] [Algebra R C]
    (dftSize : ℕ) where
  period : ℕ
  numberOfChannels : ℕ
  windowLength : ℕ
  framesPerPeriod : ℕ
  hopSize : ℕ
  inputBuffer : CircularBuffer R
  fftWrapper : FftWrapper R C dftSize
  window : ℕ → R
  calcBuffer : ℕ → R

namespace TimeFrequencyTransform

variable {dftSize : ℕ}

/-- The length of the delay line.  If there are no hops in a period, the number of hops wraps
around in `(hopsPerPeriod - 1) * hopSize`. -/
def inputBufferSize (windowLen hopSize period : ℕ) : Except Abort ℕ :=
  if hopSize = 0 ∨ period % hopSize ≠ 0 then
    .error (.exception (.logicError
      "The period size must be an integer multiple of the hop size."))
  else
    let hopsPerPeriod := period / hopSize
    .ok (windowLen + hopsPerPeriod * hopSize - hopSize)

/-- The input signals are prepended with zeros for the first transforms. -/
def padInput (dftSize hopSize numberOfChannels : ℕ) (buffer : CircularBuffer R) :
    Except Exception (CircularBuffer R) :=
  if dftSize > hopSize then
    let padSamples := dftSize - hopSize
    buffer.write (fun _ _ => 0) numberOfChannels padSamples
  else .ok buffer

/-- The constructor.  A buffer without samples has no write index. -/
def create (sqrt : R → R) (period numberOfChannels : ℕ) (window : ℕ → R)
    (windowLength hopSize : ℕ) (fftWrapper : FftWrapper R C dftSize)
    (normalisation : Normalisation) : Except Abort (TimeFrequencyTransform R C dftSize) :=
  if hopSize = 0 then .error .undefined
  else do
    let length ← inputBufferSize windowLength hopSize period
    if h : 0 < length then
      let buffer := CircularBuffer.create numberOfChannels length cVectorAlignmentSamples h
      let scaleFactor :=
        desiredScaling sqrt normalisation dftSize / fftWrapper.forwardScalingFactor
      let buffer ← (padInput dftSize hopSize numberOfChannels buffer).mapError .exception
      .ok {
        period := period
        numberOfChannels := numberOfChannels
        windowLength := windowLength
        framesPerPeriod := period / hopSize
        hopSize := hopSize
        inputBuffer := buffer
        fftWrapper := fftWrapper
        window := fun k => scaleFactor * window k
        calcBuffer := fun _ => 0 }
    else .error .undefined

/-- The frames of a period, by their numbers and channels. -/
abbrev FrameMatrix (C : Type) := ℕ × ℕ → ℕ → C

/-- The start of a frame relative to the end of the period. -/
def blockStartIndex (s : TimeFrequencyTransform R C dftSize) (frameIdx : ℕ) : ℕ :=
  s.windowLength + (s.framesPerPeriod - frameIdx - 1) * s.hopSize

/-- One frame of a channel. -/
def processFrame (s : TimeFrequencyTransform R C dftSize) (buffers : (ℕ → R) × FrameMatrix C)
    (frame : ℕ × ℕ) : Except Exception ((ℕ → R) × FrameMatrix C) := do
  let calcBuffer ← throwOnError "TimeFrequencyTransform: Error during input windowing."
    (vectorMultiply (s.inputBuffer.getReadPointer frame.2 (s.blockStartIndex frame.1))
      ⟨0, s.window⟩ ⟨0, buffers.1⟩ s.windowLength cVectorAlignmentSamples)
  return (calcBuffer,
    Function.update buffers.2 frame (s.fftWrapper.forwardTransform calcBuffer))

/-- The order in which the frames are processed. -/
def frames (s : TimeFrequencyTransform R C dftSize) : List (ℕ × ℕ) :=
  (List.range s.framesPerPeriod).flatMap fun frameIdx =>
    (List.range s.numberOfChannels).map fun channelIndex => (frameIdx, channelIndex)

/-- One period. -/
def process (s : TimeFrequencyTransform R C dftSize) (input : ℕ → ℕ → R) (outMtx : FrameMatrix C) :
    Except Exception (TimeFrequencyTransform R C dftSize × FrameMatrix C) := do
  let buffer ← s.inputBuffer.write input s.numberOfChannels s.period
  let s := { s with inputBuffer := buffer }
  let (calcBuffer, outMtx) ← s.frames.foldlM s.processFrame (s.calcBuffer, outMtx)
  return ({ s with calcBuffer := calcBuffer }, outMtx)

/-- The component after some periods of the signals, with the frames of the last one. -/
def run (s : TimeFrequencyTransform R C dftSize) (signal : ℕ → ℕ → R) :
    ℕ → Except Exception (TimeFrequencyTransform R C dftSize × FrameMatrix C)
  | 0 => .ok (s, fun _ _ => 0)
  | t + 1 =>
    match s.run signal t with
    | .ok (s, outMtx) =>
      s.process (fun channelIndex k => signal channelIndex (t * s.period + k)) outMtx
    | .error e => .error e

/-! ### The frames of a period -/

/-- The start of a frame is aligned. -/
def FrameAligned (s : TimeFrequencyTransform R C dftSize) (frame : ℕ × ℕ) : Prop :=
  cVectorAlignmentSamples ∣
    (s.inputBuffer.getReadPointer frame.2 (s.blockStartIndex frame.1)).address

/-- A frame after it has been windowed and filled up with zeros. -/
def windowed (s : TimeFrequencyTransform R C dftSize) (frame : ℕ × ℕ) (n : ℕ) : R :=
  if n < s.windowLength then
    s.inputBuffer.readAt frame.2 (s.blockStartIndex frame.1) n * s.window n
  else 0

theorem checkAlignment_default_iff {address : ℕ} :
    checkAlignment address cVectorAlignmentSamples = true ↔ cVectorAlignmentSamples ∣ address := by
  have hpow : alignmentIsPowerOfTwo cVectorAlignmentSamples = true := by decide
  have hne : cVectorAlignmentSamples ≠ 0 := by decide
  simp only [checkAlignment, Bool.or_eq_true, decide_eq_true_eq, Bool.and_eq_true, hne, false_or,
    hpow, true_and]
  exact Nat.dvd_iff_mod_eq_zero.symm

theorem processFrame_ok_iff (s : TimeFrequencyTransform R C dftSize)
    (buffers : (ℕ → R) × FrameMatrix C) (frame : ℕ × ℕ) (buffers' : (ℕ → R) × FrameMatrix C)
    (hzero : ∀ n, s.windowLength ≤ n → buffers.1 n = 0) :
    s.processFrame buffers frame = .ok buffers' ↔ s.FrameAligned frame ∧
      (s.windowed frame, Function.update buffers.2 frame
        (s.fftWrapper.forwardTransform (s.windowed frame))) = buffers' := by
  -- what the calculation buffer holds behind the window are zeros
  have hresult : (fun idx => if idx < s.windowLength then
      s.inputBuffer.readAt frame.2 (s.blockStartIndex frame.1) idx * s.window idx
      else buffers.1 idx) = s.windowed frame := by
    funext n
    unfold windowed
    split
    · rfl
    next hn => exact hzero n (Nat.not_lt.mp hn)
  unfold processFrame vectorMultiply FrameAligned
  rw [checkAlignment_default (Nat.dvd_zero _)]
  by_cases haligned : cVectorAlignmentSamples ∣
      (s.inputBuffer.getReadPointer frame.2 (s.blockStartIndex frame.1)).address
  · rw [checkAlignment_default haligned]
    show Except.ok _ = Except.ok _ ↔ _
    rw [Except.ok.injEq, ← hresult]
    exact (and_iff_right haligned).symm
  · have hcheck : checkAlignment
        (s.inputBuffer.getReadPointer frame.2 (s.blockStartIndex frame.1)).address
        cVectorAlignmentSamples = false :=
      Bool.eq_false_iff.mpr fun h => haligned (checkAlignment_default_iff.mp h)
    rw [hcheck]
    exact iff_of_false nofun fun h => haligned h.1

/-- The frames do not fail if they start at aligned positions. -/
theorem processFrames_of_aligned (s : TimeFrequencyTransform R C dftSize)
    {frames : List (ℕ × ℕ)} (haligned : ∀ frame ∈ frames, s.FrameAligned frame)
    (buffers : (ℕ → R) × FrameMatrix C) (hzero : ∀ n, s.windowLength ≤ n → buffers.1 n = 0) :
    ∃ buffers', frames.foldlM s.processFrame buffers = .ok buffers' ∧
      (∀ n, s.windowLength ≤ n → buffers'.1 n = 0) ∧
      ∀ frame, buffers'.2 frame =
        if frame ∈ frames then s.fftWrapper.forwardTransform (s.windowed frame)
        else buffers.2 frame := by
  induction frames generalizing buffers with
  | nil => exact ⟨buffers, rfl, hzero, fun frame => (if_neg List.not_mem_nil).symm⟩
  | cons first rest ih =>
    obtain ⟨hfirst, hrest⟩ := List.forall_mem_cons.mp haligned
    have hstep := (s.processFrame_ok_iff buffers first _ hzero).mpr ⟨hfirst, rfl⟩
    -- the calculation buffer remains zero behind the window
    have hbehind : ∀ n, s.windowLength ≤ n → (s.windowed first, Function.update buffers.2 first
        (s.fftWrapper.forwardTransform (s.windowed first))).1 n = 0 :=
      fun n hn => if_neg (Nat.not_lt.mpr hn)
    obtain ⟨buffers', hfold, hzero', hout⟩ := ih hrest _ hbehind
    refine ⟨buffers', ?_, hzero', fun frame => ?_⟩
    · rw [List.foldlM_cons, hstep]
      exact hfold
    · rw [hout]
      dsimp only
      by_cases hmem : frame ∈ rest
      · rw [if_pos hmem, if_pos (List.mem_cons_of_mem first hmem)]
      · rw [if_neg hmem]
        by_cases hframe : frame = first
        · rw [hframe, Function.update_self, if_pos List.mem_cons_self]
        · have hnot : frame ∉ first :: rest := fun h => (List.mem_cons.mp h).elim hframe hmem
          rw [Function.update_of_ne hframe, if_neg hnot]

/-- Frames that do not start at aligned positions fail. -/
theorem aligned_of_processFrames (s : TimeFrequencyTransform R C dftSize)
    {frames : List (ℕ × ℕ)} {buffers buffers' : (ℕ → R) × FrameMatrix C}
    (hzero : ∀ n, s.windowLength ≤ n → buffers.1 n = 0)
    (h : frames.foldlM s.processFrame buffers = .ok buffers') :
    ∀ frame ∈ frames, s.FrameAligned frame := by
  induction frames generalizing buffers with
  | nil => exact List.forall_mem_nil _
  | cons first rest ih =>
    rw [List.foldlM_cons] at h
    obtain ⟨next, hstep, hrest⟩ := exists_of_bind_ok h
    obtain ⟨hfirst, rfl⟩ := (s.processFrame_ok_iff buffers first next hzero).mp hstep
    exact List.forall_mem_cons.mpr
      ⟨hfirst, ih (fun n hn => if_neg (Nat.not_lt.mpr hn)) hrest⟩

theorem mem_frames (s : TimeFrequencyTransform R C dftSize) {frameIdx channelIndex : ℕ} :
    (frameIdx, channelIndex) ∈ s.frames ↔
      frameIdx < s.framesPerPeriod ∧ channelIndex < s.numberOfChannels := by
  unfold frames
  rw [List.mem_flatMap]
  constructor
  · rintro ⟨f, hf, hmem⟩
    obtain ⟨ch, hch, heq⟩ := List.mem_map.mp hmem
    obtain ⟨rfl, rfl⟩ := Prod.mk.inj heq
    exact ⟨List.mem_range.mp hf, List.mem_range.mp hch⟩
  · rintro ⟨hf, hch⟩
    exact ⟨frameIdx, List.mem_range.mpr hf,
      List.mem_map.mpr ⟨channelIndex, List.mem_range.mpr hch, rfl⟩⟩

/-! ### Runs -/

/-- The periods consist of hops, and the window is as long as a hop at least. -/
structure Regular (s : TimeFrequencyTransform R C dftSize) : Prop where
  period : s.period = s.framesPerPeriod * s.hopSize
  hopSize : 0 < s.hopSize
  windowLength : s.hopSize ≤ s.windowLength

/-- What is known after `t` periods. -/
structure Inv (s₀ : TimeFrequencyTransform R C dftSize) (signal : ℕ → ℕ → R) (t : ℕ)
    (s : TimeFrequencyTransform R C dftSize) : Prop where
  config : s = { s₀ with inputBuffer := s.inputBuffer, calcBuffer := s.calcBuffer }
  channels : s.inputBuffer.numberOfChannels = s.numberOfChannels
  length : s.inputBuffer.length = s.windowLength + s.framesPerPeriod * s.hopSize - s.hopSize
  allocated : cVectorAlignmentSamples ∣ s.inputBuffer.allocatedLength
  holds : s.inputBuffer.Holds signal (t * s.period)
  head : s.inputBuffer.writeHeadIndex % cVectorAlignmentSamples =
    (dftSize - s.hopSize + t * s.period) % cVectorAlignmentSamples
  calcBuffer : ∀ n, s.windowLength ≤ n → s.calcBuffer n = 0

/-- The frame with the number `m`, counted over all periods, starts at an aligned position. -/
def AlignedAt (s : TimeFrequencyTransform R C dftSize) (m : ℕ) : Prop :=
  (dftSize - s.hopSize + (m + 1) * s.hopSize) % cVectorAlignmentSamples =
    s.windowLength % cVectorAlignmentSamples

/-- The frame with the number `m` of a channel, windowed and filled up with zeros. -/
def frameOf (s : TimeFrequencyTransform R C dftSize) (signal : ℕ → ℕ → R) (m channelIndex n : ℕ) :
    R :=
  if n < s.windowLength then
    past (signal channelIndex) ((m + 1) * s.hopSize) (s.windowLength - n) * s.window n
  else 0

section Periods

variable {s₀ s : TimeFrequencyTransform R C dftSize} {signal : ℕ → ℕ → R} {t : ℕ}

/-- The position of a frame in the period and its position in the signal. -/
theorem position_eq (h : s.Regular) {frameIdx : ℕ} (hframe : frameIdx < s.framesPerPeriod) :
    (t + 1) * s.period = (t * s.framesPerPeriod + frameIdx + 1) * s.hopSize +
      (s.framesPerPeriod - frameIdx - 1) * s.hopSize := by
  rw [h.period, ← Nat.add_mul, ← Nat.mul_assoc, Nat.succ_mul]
  congr 1
  omega

/-- After the samples of a period have been written. -/
theorem Inv.write (hreg : s.Regular) (h : Inv s₀ signal t s) :
    ∃ b, s.inputBuffer.write (fun channelIndex k => signal channelIndex (t * s.period + k))
        s.numberOfChannels s.period = .ok b ∧
      Inv s₀ signal (t + 1) { s with inputBuffer := b } := by
  have hperiod := hreg.period
  have hwindow := hreg.windowLength
  have hlength : s.period ≤ s.inputBuffer.length := by
    rw [h.length]
    omega
  have hallocated := s.inputBuffer.length_le
  have hwrite := CircularBuffer.write_of_le hlength
    fun channelIndex k => signal channelIndex (t * s.period + k)
  rw [h.channels] at hwrite
  refine ⟨_, hwrite, ?_⟩
  constructor
  · dsimp only
    rw [h.config]
  · exact h.channels
  · exact h.length
  · exact h.allocated
  · dsimp only
    rw [Nat.succ_mul]
    exact h.holds.store_advance (by omega) _ fun _ _ _ _ => rfl
  · -- the length that is allocated is a multiple of the alignment, so wrapping around keeps the
    -- remainder
    show (s.inputBuffer.writeHeadIndex + s.period) % s.inputBuffer.allocatedLength % _ = _
    rw [Nat.mod_mod_of_dvd _ h.allocated, Nat.succ_mul, ← Nat.add_assoc, Nat.add_mod, h.head,
      ← Nat.add_mod]
  · exact h.calcBuffer

/-- The alignment of a frame. -/
theorem Inv.frameAligned_iff (hreg : s.Regular) (h : Inv s₀ signal (t + 1) s)
    {frameIdx channelIndex : ℕ} (hframe : frameIdx < s.framesPerPeriod) :
    s.FrameAligned (frameIdx, channelIndex) ↔ s.AlignedAt (t * s.framesPerPeriod + frameIdx) := by
  have hhead := h.head
  have hlength := h.length
  have hallocated := s.inputBuffer.length_le
  have hposition := position_eq (t := t) hreg hframe
  have hwindow := hreg.windowLength
  obtain ⟨a, ha⟩ := h.allocated
  have hrest : (s.framesPerPeriod - frameIdx - 1) * s.hopSize + s.hopSize ≤
      s.framesPerPeriod * s.hopSize := by
    rw [← Nat.succ_mul]
    exact Nat.mul_le_mul_right s.hopSize (by omega)
  have hchannel : cVectorAlignmentSamples ∣ channelIndex * (2 * s.inputBuffer.allocatedLength) := by
    rw [ha]
    exact Dvd.intro (channelIndex * (2 * a)) (by ring)
  unfold FrameAligned AlignedAt CircularBuffer.getReadPointer blockStartIndex
  dsimp only
  rw [Nat.dvd_add_right hchannel]
  rw [hposition] at hhead
  generalize (t * s.framesPerPeriod + frameIdx + 1) * s.hopSize = m at hhead ⊢
  generalize (s.framesPerPeriod - frameIdx - 1) * s.hopSize = r at hhead hrest ⊢
  rw [show cVectorAlignmentSamples = 16 from rfl] at *
  omega

/-- The contents of a frame. -/
theorem Inv.windowed_eq (hreg : s.Regular) (h : Inv s₀ signal (t + 1) s)
    {frameIdx channelIndex : ℕ} (hframe : frameIdx < s.framesPerPeriod)
    (hchannel : channelIndex < s.numberOfChannels) :
    s.windowed (frameIdx, channelIndex) =
      s.frameOf signal (t * s.framesPerPeriod + frameIdx) channelIndex := by
  have hlength := h.length
  have hallocated := s.inputBuffer.length_le
  have hrest : (s.framesPerPeriod - frameIdx - 1) * s.hopSize + s.hopSize ≤
      s.framesPerPeriod * s.hopSize := by
    rw [← Nat.succ_mul]
    exact Nat.mul_le_mul_right s.hopSize (by omega)
  funext n
  unfold windowed frameOf
  split
  next hn =>
    have hread := h.holds.readAt (k := n) (d := s.blockStartIndex frameIdx)
      (by rw [h.channels]; exact hchannel) (by unfold blockStartIndex; omega)
      (by unfold blockStartIndex; omega)
    have hage : s.blockStartIndex frameIdx - n =
        s.windowLength - n + (s.framesPerPeriod - frameIdx - 1) * s.hopSize := by
      unfold blockStartIndex
      omega
    rw [hread, position_eq hreg hframe, hage, Signal.past_add_add]
  next => rfl

/-- **One period.** -/
theorem Inv.process (hreg : s.Regular) (h : Inv s₀ signal t s) (outMtx : FrameMatrix C) :
    ((∃ result, s.process (fun channelIndex k => signal channelIndex (t * s.period + k)) outMtx =
        .ok result) ↔
      ∀ frameIdx < s.framesPerPeriod, 0 < s.numberOfChannels →
        s.AlignedAt (t * s.framesPerPeriod + frameIdx)) ∧
    ∀ s' outMtx', s.process (fun channelIndex k => signal channelIndex (t * s.period + k)) outMtx =
        .ok (s', outMtx') → Inv s₀ signal (t + 1) s' ∧
      ∀ frameIdx < s.framesPerPeriod, ∀ channelIndex < s.numberOfChannels,
        outMtx' (frameIdx, channelIndex) = s.fftWrapper.forwardTransform
          (s.frameOf signal (t * s.framesPerPeriod + frameIdx) channelIndex) := by
  obtain ⟨b, hwrite, hb⟩ := h.write hreg
  have hregb : ({ s with inputBuffer := b } : TimeFrequencyTransform R C dftSize).Regular :=
    ⟨hreg.period, hreg.hopSize, hreg.windowLength⟩
  have hprocess : s.process (fun channelIndex k => signal channelIndex (t * s.period + k)) outMtx =
      ((s.frames.foldlM ({ s with inputBuffer := b } :
        TimeFrequencyTransform R C dftSize).processFrame (s.calcBuffer, outMtx)) >>=
        fun buffers => .ok ({ s with inputBuffer := b, calcBuffer := buffers.1 }, buffers.2)) := by
    unfold TimeFrequencyTransform.process
    rw [hwrite]
    rfl
  -- all channels have the same alignment, so the first one decides for a frame
  have haligned : (∀ frame ∈ s.frames, ({ s with inputBuffer := b } :
      TimeFrequencyTransform R C dftSize).FrameAligned frame) ↔
      ∀ frameIdx < s.framesPerPeriod, 0 < s.numberOfChannels →
        s.AlignedAt (t * s.framesPerPeriod + frameIdx) := by
    constructor
    · intro hall frameIdx hframe hpos
      exact (hb.frameAligned_iff hregb hframe).mp
        (hall (frameIdx, 0) (s.mem_frames.mpr ⟨hframe, hpos⟩))
    · rintro hall ⟨frameIdx, channelIndex⟩ hmem
      obtain ⟨hframe, hchannel⟩ := s.mem_frames.mp hmem
      exact (hb.frameAligned_iff hregb hframe).mpr
        (hall frameIdx hframe (Nat.zero_lt_of_lt hchannel))
  rw [hprocess, ← haligned]
  constructor
  · constructor
    · rintro ⟨result, hok⟩
      obtain ⟨buffers, hfold, -⟩ := exists_of_bind_ok hok
      exact aligned_of_processFrames _ h.calcBuffer hfold
    · intro hall
      obtain ⟨buffers, hfold, -⟩ := processFrames_of_aligned
        { s with inputBuffer := b } hall (s.calcBuffer, outMtx) h.calcBuffer
      rw [hfold]
      exact ⟨_, rfl⟩
  · intro s' outMtx' hok
    obtain ⟨buffers, hfold, hs'⟩ := exists_of_bind_ok hok
    obtain ⟨buffers', hfold', hzero, hout⟩ := processFrames_of_aligned
      { s with inputBuffer := b } (aligned_of_processFrames _ h.calcBuffer hfold)
      (s.calcBuffer, outMtx) h.calcBuffer
    cases hfold.symm.trans hfold'
    cases hs'
    refine ⟨⟨?_, hb.channels, hb.length, hb.allocated, hb.holds, hb.head, hzero⟩, ?_⟩
    · dsimp only
      rw [h.config]
    · intro frameIdx hframe channelIndex hchannel
      rw [hout, if_pos (s.mem_frames.mpr ⟨hframe, hchannel⟩),
        hb.windowed_eq hregb hframe hchannel]
      rfl

end Periods

theorem Inv.regular {s₀ s : TimeFrequencyTransform R C dftSize} {signal : ℕ → ℕ → R} {t : ℕ}
    (hreg : s₀.Regular) (h : Inv s₀ signal t s) : s.Regular := by
  rw [h.config]
  exact ⟨hreg.period, hreg.hopSize, hreg.windowLength⟩

/-- **What is known after some periods.** -/
theorem run_spec {s₀ : TimeFrequencyTransform R C dftSize} {signal : ℕ → ℕ → R}
    (hreg : s₀.Regular) (h₀ : Inv s₀ signal 0 s₀) (t : ℕ) {s : TimeFrequencyTransform R C dftSize}
    {outMtx : FrameMatrix C} (h : s₀.run signal t = .ok (s, outMtx)) : Inv s₀ signal t s := by
  induction t generalizing s outMtx with
  | zero =>
    cases h
    exact h₀
  | succ t ih =>
    rw [run] at h
    split at h
    next s' outMtx' hrun =>
      have hinv := ih hrun
      exact ((hinv.process (hinv.regular hreg) outMtx').2 s outMtx h).1
    next => cases h

/-- The padding stands for the samples before the start of a signal. -/
theorem padInput_spec {hopSize numberOfChannels length : ℕ} (hpos : 0 < length)
    {b : CircularBuffer R} (hpad : padInput dftSize hopSize numberOfChannels
      (CircularBuffer.create numberOfChannels length cVectorAlignmentSamples hpos) = .ok b)
    (signal : ℕ → ℕ → R) :
    b.numberOfChannels = numberOfChannels ∧ b.length = length ∧
      cVectorAlignmentSamples ∣ b.allocatedLength ∧ b.Holds signal 0 ∧
      b.writeHeadIndex % cVectorAlignmentSamples =
        (dftSize - hopSize) % cVectorAlignmentSamples := by
  have hdvd : cVectorAlignmentSamples ∣ nextAlignedSize length cVectorAlignmentSamples :=
    dvd_nextAlignedSize _ (by decide)
  unfold padInput at hpad
  split at hpad
  next hlarge =>
    obtain ⟨hle, rfl⟩ := CircularBuffer.eq_of_write_ok hpad
    -- the buffer holds silence, to which the zeros belong
    have hzeros := (CircularBuffer.holds_create numberOfChannels length cVectorAlignmentSamples hpos
      fun _ _ => (0 : R)).store_advance (n := dftSize - hopSize)
        (hle.trans (le_nextAlignedSize length cVectorAlignmentSamples))
        (fun _ _ => 0) fun _ _ _ _ => rfl
    refine ⟨rfl, rfl, hdvd, ⟨hzeros.mirrored, fun ch age hch hage hle' => ?_⟩, ?_⟩
    · rw [hzeros.latest ch age hch hage hle', Signal.past_of_lt (signal ch) hage]
      unfold past
      split <;> rfl
    · show (0 + (dftSize - hopSize)) % nextAlignedSize length cVectorAlignmentSamples %
        cVectorAlignmentSamples = _
      rw [Nat.mod_mod_of_dvd _ hdvd, Nat.zero_add]
  next hsmall =>
    cases hpad
    have hnone : dftSize - hopSize = 0 := Nat.sub_eq_zero_of_le (Nat.not_lt.mp hsmall)
    rw [hnone]
    exact ⟨rfl, rfl, hdvd, CircularBuffer.holds_create numberOfChannels _ cVectorAlignmentSamples
      hpos signal, rfl⟩

/-- What the constructor makes of its arguments. -/
theorem create_spec {sqrt : R → R} {period numberOfChannels : ℕ} {window : ℕ → R}
    {windowLength hopSize : ℕ} {fftWrapper : FftWrapper R C dftSize}
    {normalisation : Normalisation} {s : TimeFrequencyTransform R C dftSize}
    (h : create sqrt period numberOfChannels window windowLength hopSize fftWrapper
      normalisation = .ok s) (hwindow : hopSize ≤ windowLength) (signal : ℕ → ℕ → R) :
    s.Regular ∧ Inv s signal 0 s ∧ s.period = period ∧ s.numberOfChannels = numberOfChannels ∧
      s.windowLength = windowLength ∧ s.hopSize = hopSize ∧ s.fftWrapper = fftWrapper ∧
      s.window = fun k =>
        desiredScaling sqrt normalisation dftSize / fftWrapper.forwardScalingFactor * window k := by
  unfold create inputBufferSize at h
  split at h
  · cases h
  next hhop =>
    obtain ⟨length, hlength, h⟩ := exists_of_bind_ok h
    split at hlength
    · cases hlength
    next hdvd =>
      cases hlength
      rw [not_or, not_not] at hdvd
      have hperiod : period = period / hopSize * hopSize :=
        (Nat.div_mul_cancel (Nat.dvd_of_mod_eq_zero hdvd.2)).symm
      split at h
      next hpos =>
        obtain ⟨b, hbuffer, h⟩ := exists_of_bind_ok h
        cases h
        obtain ⟨hchannels, hbufferLength, hdvdAllocated, hholds, hwriteHead⟩ :=
          padInput_spec hpos (ok_of_mapError hbuffer) signal
        refine ⟨⟨hperiod, Nat.pos_of_ne_zero hhop, hwindow⟩,
          ⟨rfl, hchannels, hbufferLength, hdvdAllocated, ?_, ?_, fun _ _ => rfl⟩,
          rfl, rfl, rfl, rfl, rfl, rfl⟩
        · rw [Nat.zero_mul]
          exact hholds
        · rw [Nat.zero_mul, Nat.add_zero]
          exact hwriteHead
      next => cases h

/-! ### The frames of a run -/

/-- **The frames of all periods** are the transforms, with a scaling factor, of the windowed
samples that end at the frame's position, filled up with zeros.  There are zeros before the start
of the signal. -/
def Frames (s : TimeFrequencyTransform R C dftSize) (window : ℕ → R) (scaling : R)
    (signal : ℕ → ℕ → R) : Prop :=
  ∀ t, ∃ s' outMtx, s.run signal (t + 1) = .ok (s', outMtx) ∧
    ∀ f < s.framesPerPeriod, ∀ channelIndex < s.numberOfChannels, ∀ k ≤ dftSize / 2,
      outMtx (f, channelIndex) k = algebraMap R C scaling *
        spectrumOf C s.fftWrapper.rootOfUnity dftSize (fun n =>
          if n < s.windowLength then
            window n * past (signal channelIndex) (t * s.period + (f + 1) * s.hopSize)
              (s.windowLength - n)
          else 0) k

/-- The transform of a frame, with the factor by which the window was scaled. -/
theorem forwardTransform_frameOf {s : TimeFrequencyTransform R C dftSize} {window : ℕ → R}
    {scaling : R}
    (hwindow : s.window = fun k => scaling / s.fftWrapper.forwardScalingFactor * window k)
    (signal : ℕ → ℕ → R) (m channelIndex : ℕ) {k : ℕ} (hk : k ≤ dftSize / 2) :
    s.fftWrapper.forwardTransform (s.frameOf signal m channelIndex) k =
      algebraMap R C scaling * spectrumOf C s.fftWrapper.rootOfUnity dftSize (fun n =>
        if n < s.windowLength then
          window n * past (signal channelIndex) ((m + 1) * s.hopSize) (s.windowLength - n)
        else 0) k := by
  have hframe : s.frameOf signal m channelIndex = fun n =>
      scaling / s.fftWrapper.forwardScalingFactor *
        if n < s.windowLength then
          window n * past (signal channelIndex) ((m + 1) * s.hopSize) (s.windowLength - n)
        else 0 := by
    funext n
    unfold frameOf
    rw [hwindow]
    split
    · ring
    · rw [mul_zero]
  rw [s.fftWrapper.forward_exact _ k hk, hframe, spectrumOf_mul_left, ← mul_assoc, ← map_mul,
    mul_div_cancel₀ _ s.fftWrapper.forward_ne_zero]

/-- All frames start at aligned positions. -/
theorem alignedAt_iff {s : TimeFrequencyTransform R C dftSize} (hreg : s.Regular)
    (hsize : s.windowLength ≤ dftSize) :
    (∀ m, s.AlignedAt m) ↔ cVectorAlignmentSamples ∣ s.hopSize ∧
      dftSize % cVectorAlignmentSamples = s.windowLength % cVectorAlignmentSamples := by
  have hwindow := hreg.windowLength
  unfold AlignedAt
  constructor
  · intro hall
    have hzero := hall 0
    have hone := hall 1
    rw [Nat.zero_add, Nat.one_mul] at hzero
    rw [show cVectorAlignmentSamples = 16 from rfl] at *
    omega
  · rintro ⟨hdvd, hmod⟩ m
    have hhops : cVectorAlignmentSamples ∣ m * s.hopSize := Dvd.dvd.mul_left hdvd m
    rw [Nat.succ_mul]
    generalize m * s.hopSize = hops at *
    rw [show cVectorAlignmentSamples = 16 from rfl] at *
    omega

/-- If no period fails, each frame starts at an aligned position. -/
theorem alignedAt_of_frames {s : TimeFrequencyTransform R C dftSize} (hreg : s.Regular)
    {signal : ℕ → ℕ → R} (h₀ : Inv s signal 0 s) (hchannels : 0 < s.numberOfChannels)
    (hframes : 0 < s.framesPerPeriod) {window : ℕ → R} {scaling : R}
    (h : s.Frames window scaling signal) (m : ℕ) : s.AlignedAt m := by
  obtain ⟨s', outMtx, hrun, -⟩ := h (m / s.framesPerPeriod)
  rw [run] at hrun
  split at hrun
  next s₁ outMtx₁ hrun₁ =>
    have hinv := run_spec hreg h₀ _ hrun₁
    have haligned := ((hinv.process (hinv.regular hreg) outMtx₁).1.mp ⟨_, hrun⟩)
      (m % s.framesPerPeriod)
    rw [hinv.config] at haligned
    have hm := haligned (Nat.mod_lt m hframes) hchannels
    dsimp only at hm
    rw [Nat.div_add_mod'] at hm
    exact hm
  next => cases hrun

/-- If each frame starts at an aligned position, no period fails. -/
theorem run_of_aligned {s : TimeFrequencyTransform R C dftSize} (hreg : s.Regular)
    {signal : ℕ → ℕ → R} (h₀ : Inv s signal 0 s)
    (hall : ∀ t, ∀ frameIdx < s.framesPerPeriod, 0 < s.numberOfChannels →
      s.AlignedAt (t * s.framesPerPeriod + frameIdx)) (t : ℕ) :
    ∃ s' outMtx, s.run signal t = .ok (s', outMtx) := by
  induction t with
  | zero => exact ⟨s, _, rfl⟩
  | succ t ih =>
    obtain ⟨s₁, outMtx₁, hrun₁⟩ := ih
    have hinv := run_spec hreg h₀ _ hrun₁
    have hprocess := (hinv.process (hinv.regular hreg) outMtx₁).1.mpr (by
      rw [hinv.config]
      exact hall t)
    obtain ⟨⟨s', outMtx⟩, hok⟩ := hprocess
    refine ⟨s', outMtx, ?_⟩
    rw [run, hrun₁]
    exact hok

/-- **The frames are right** if and only if there are no frames, or the hop size is a multiple of
the alignment and the window and the transform have the same length up to such multiples. -/
theorem frames_iff {sqrt : R → R} {period numberOfChannels : ℕ} {window : ℕ → R}
    {windowLength hopSize : ℕ} {fftWrapper : FftWrapper R C dftSize}
    {normalisation : Normalisation} {s : TimeFrequencyTransform R C dftSize}
    (h : create sqrt period numberOfChannels window windowLength hopSize fftWrapper
      normalisation = .ok s)
    (hwindow : hopSize ≤ windowLength) (hsize : windowLength ≤ dftSize) :
    (∀ signal, s.Frames window (desiredScaling sqrt normalisation dftSize) signal) ↔
      numberOfChannels = 0 ∨ period = 0 ∨ cVectorAlignmentSamples ∣ hopSize ∧
        dftSize % cVectorAlignmentSamples = windowLength % cVectorAlignmentSamples := by
  have hspec := create_spec h hwindow
  obtain ⟨hreg, -, rfl, rfl, rfl, rfl, rfl, hscaled⟩ := hspec fun _ _ => 0
  have hperiod := hreg.period
  constructor
  · intro hall
    by_cases hchannels : s.numberOfChannels = 0
    · exact Or.inl hchannels
    · by_cases hzero : s.period = 0
      · exact Or.inr (Or.inl hzero)
      · have hpos : 0 < s.framesPerPeriod := by
          refine Nat.pos_of_ne_zero fun hframes => hzero ?_
          rw [hperiod, hframes, Nat.zero_mul]
        exact Or.inr (Or.inr ((alignedAt_iff hreg hsize).mp (alignedAt_of_frames hreg
          (hspec fun _ _ => 0).2.1 (Nat.pos_of_ne_zero hchannels) hpos (hall fun _ _ => 0))))
  · intro hcondition signal
    -- without channels or with empty periods, there are no frames that have to be aligned
    have hall : ∀ t, ∀ frameIdx < s.framesPerPeriod, 0 < s.numberOfChannels →
        s.AlignedAt (t * s.framesPerPeriod + frameIdx) := by
      intro t frameIdx hframe hchannels
      rcases hcondition with hnone | hnone | haligned
      · omega
      · have hpos : 0 < s.framesPerPeriod * s.hopSize :=
          Nat.mul_pos (Nat.zero_lt_of_lt hframe) hreg.hopSize
        omega
      · exact (alignedAt_iff hreg hsize).mpr haligned _
    have hrun := run_of_aligned hreg (hspec signal).2.1 hall
    intro t
    obtain ⟨s₁, outMtx₁, hrun₁⟩ := hrun t
    obtain ⟨s', outMtx, hrun'⟩ := hrun (t + 1)
    refine ⟨s', outMtx, hrun', fun f hf channelIndex hchannel k hk => ?_⟩
    have hinv := run_spec hreg (hspec signal).2.1 _ hrun₁
    have hprocess := hrun'
    rw [run, hrun₁] at hprocess
    have hout := ((hinv.process (hinv.regular hreg) outMtx₁).2 s' outMtx hprocess).2
    rw [hinv.config] at hout
    have hposition : t * s.period + (f + 1) * s.hopSize =
        (t * s.framesPerPeriod + f + 1) * s.hopSize := by
      rw [hperiod, ← Nat.mul_assoc, ← Nat.add_mul, Nat.add_assoc]
    rw [hout f hf channelIndex hchannel, hposition]
    exact forwardTransform_frameOf hscaled signal (t * s.framesPerPeriod + f) channelIndex hk

/-- The ideal transform of 64 samples. -/
noncomputable def fft64 : FftWrapper ℝ ℂ 64 :=
  .unscaled 64 (by decide)

/-- The frames are right for hops of 16 samples and a window of 32 samples. -/
theorem frames_hop16 : ∃ s, create Real.sqrt 64 1 (fun _ => 1) 32 16 fft64 .One = .ok s ∧
    ∀ signal, s.Frames (fun _ => 1) (desiredScaling Real.sqrt .One 64) signal := by
  obtain ⟨s, hs⟩ : ∃ s, create Real.sqrt 64 1 (fun _ => 1) 32 16 fft64 .One = .ok s := ⟨_, rfl⟩
  refine ⟨s, hs, (frames_iff hs ?_ ?_).mpr (Or.inr (Or.inr ⟨?_, ?_⟩))⟩
  · decide
  · decide
  · decide
  · decide

/-- The second frame fails for hops of 8 samples. -/
theorem not_frames_hop8 : ∃ s, create Real.sqrt 64 1 (fun _ => 1) 64 8 fft64 .One = .ok s ∧
    ¬ s.Frames (fun _ => 1) (desiredScaling Real.sqrt .One 64) fun _ _ => 0 := by
  obtain ⟨s, hs⟩ : ∃ s, create Real.sqrt 64 1 (fun _ => 1) 64 8 fft64 .One = .ok s := ⟨_, rfl⟩
  refine ⟨s, hs, fun h => ?_⟩
  obtain ⟨hreg, hinv, hperiod, hchannels, hwindow, hhop, -⟩ :=
    create_spec hs (by decide) fun _ _ => 0
  have hframes := hreg.period
  rw [hperiod, hhop] at hframes
  have haligned := alignedAt_of_frames hreg hinv (by omega) (by omega) h 1
  unfold AlignedAt at haligned
  rw [hwindow, hhop] at haligned
  exact absurd haligned (by decide)

end TimeFrequencyTransform

end Visr
