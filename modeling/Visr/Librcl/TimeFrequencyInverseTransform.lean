import Visr.Libefl.VectorFunctions
import Visr.Library.OverlapAdd
import Visr.Librbbl.FftWrapper

/-!
# The inverse short-time Fourier transform

The frames of a period are transformed one after the other and added with an offset of one hop.

## Main results

* `TimeFrequencyInverseTransform.process_spec` — the output has the sum of the frames from the
  last one of the period on.
* `TimeFrequencyInverseTransform.overlapAdds_iff` — **the output is the sum of all frames if and
  only if there is at most one frame in each period.**
-/

namespace Visr

open OverlapAdd

variable {R C : Type} [Field R] [CommRing C] [Algebra R C]

/-- The normalisation of the transforms. -/
inductive Normalisation
  | One
  | Unitary
  | OneOverN
  deriving DecidableEq

/-- The factor of a transform, with a square root function. -/
def desiredScaling (sqrt : R → R) (desiredNormalisation : Normalisation) (dftSize : ℕ) : R :=
  match desiredNormalisation with
  | .One => 1
  | .Unitary => 1 / sqrt dftSize
  | .OneOverN => 1 / dftSize

def calculateScalingFactor (sqrt : R → R) (desiredNormalisation : Normalisation)
    (actualDftScaling : R) (dftSize : ℕ) : R :=
  desiredScaling sqrt desiredNormalisation dftSize / actualDftScaling

/-- The component.  A row of `accumulationBuffer` has `dftSize - hopSize` elements, and
`calcBuffer` has `dftSize`; what is behind them does not belong to the component. -/
structure TimeFrequencyInverseTransform (R C : Type) [Field R] [CommRing C] [Algebra R C]
    (dftSize : ℕ) where
  period : ℕ
  numberOfChannels : ℕ
  framesPerPeriod : ℕ
  hopSize : ℕ
  accumulationBuffer : ℕ → ℕ → R
  fftWrapper : FftWrapper R C dftSize
  calcBuffer : ℕ → R
  scalingFactor : R

/-- The frames of a period: frame, channel and bin. -/
abbrev TimeFrequencyParameter (C : Type) := ℕ → ℕ → ℕ → C

namespace TimeFrequencyInverseTransform

variable {dftSize : ℕ}

/-- The constructor. -/
def create (sqrt : R → R) (period numberOfChannels hopSize : ℕ)
    (fftWrapper : FftWrapper R C dftSize) (normalisation : Normalisation) :
    Except Exception (TimeFrequencyInverseTransform R C dftSize) :=
  if period % hopSize ≠ 0 then
    .error (.invalidArgument ("TimeFrequencyInverseTransform: Invalid hop size (no integer " ++
      "number of hops per audio processing period)."))
  else .ok {
    period := period
    numberOfChannels := numberOfChannels
    framesPerPeriod := period / hopSize
    hopSize := hopSize
    accumulationBuffer := fun _ _ => 0
    fftWrapper := fftWrapper
    calcBuffer := fun _ => 0
    scalingFactor :=
      calculateScalingFactor sqrt normalisation fftWrapper.inverseScalingFactor dftSize }

/-- One frame: the row of the accumulation buffer and the calculation buffer after it. -/
def processFrame (s : TimeFrequencyInverseTransform R C dftSize) (dftPtr : ℕ → C)
    (row calcBuffer : ℕ → R) : Except Exception ((ℕ → R) × (ℕ → R)) := do
  let accuElementsToCopy := dftSize - s.hopSize
  let calcBuffer := overwrite calcBuffer 0 dftSize (s.fftWrapper.inverseTransform dftPtr)
  let calcBuffer ← throwOnError
    "TimeFrequencyInverseTransform: Updating of output accumulator failed."
    (vectorAddInplace ⟨0, row⟩ ⟨0, calcBuffer⟩ accuElementsToCopy 0)
  let row ← throwOnError "TimeFrequencyInverseTransform: Storing partial results failed."
    (vectorCopy (Pointer.offset ⟨0, calcBuffer⟩ s.hopSize) ⟨0, row⟩ accuElementsToCopy 0)
  return (row, calcBuffer)

/-- The loop over the frames, for one channel. -/
def processFrames (s : TimeFrequencyInverseTransform R C dftSize) :
    List (ℕ → C) → (ℕ → R) × (ℕ → R) → Except Exception ((ℕ → R) × (ℕ → R))
  | [], buffers => .ok buffers
  | dftPtr :: rest, (row, calcBuffer) =>
    match s.processFrame dftPtr row calcBuffer with
    | .ok buffers => s.processFrames rest buffers
    | .error e => .error e

/-- The loop over the channels; the result has the component and the output signals. -/
def processChannels (inMtx : TimeFrequencyParameter C) (output : AudioChannels R) :
    List ℕ → TimeFrequencyInverseTransform R C dftSize → (ℕ → ℕ → R) →
      Except Exception (TimeFrequencyInverseTransform R C dftSize × (ℕ → ℕ → R))
  | [], s, signals => .ok (s, signals)
  | channelIdx :: rest, s, signals => do
    let frames := (List.range s.framesPerPeriod).map fun frameIdx => inMtx frameIdx channelIdx
    let (row, calcBuffer) ←
      s.processFrames frames (s.accumulationBuffer channelIdx, s.calcBuffer)
    let signal ← throwOnError "TimeFrequencyInverseTransform: Error while copying output data."
      (vectorMultiplyConstant s.scalingFactor ⟨0, calcBuffer⟩ (output.channel channelIdx) s.period
        cVectorAlignmentSamples)
    processChannels inMtx output rest
      { s with
        accumulationBuffer := Function.update s.accumulationBuffer channelIdx row
        calcBuffer := calcBuffer }
      (Function.update signals channelIdx signal)

/-- One period. -/
def process (s : TimeFrequencyInverseTransform R C dftSize) (inMtx : TimeFrequencyParameter C)
    (output : AudioChannels R) :
    Except Exception (TimeFrequencyInverseTransform R C dftSize × (ℕ → ℕ → R)) :=
  processChannels inMtx output (List.range s.numberOfChannels) s fun channelIdx =>
    (output.channel channelIdx).data

/-- The component after some periods, with the output signals of the last one.  The frames are
numbered consecutively. -/
def run (s : TimeFrequencyInverseTransform R C dftSize) (frames : TimeFrequencyParameter C)
    (outputs : ℕ → AudioChannels R) :
    ℕ → Except Exception (TimeFrequencyInverseTransform R C dftSize × (ℕ → ℕ → R))
  | 0 => .ok (s, fun _ _ => 0)
  | t + 1 =>
    match s.run frames outputs t with
    | .ok (s, _) =>
      s.process (fun frameIdx => frames (t * s.framesPerPeriod + frameIdx)) (outputs t)
    | .error e => .error e

/-! ### One period -/

/-- The frames of a channel after the inverse transform. -/
def transformed (s : TimeFrequencyInverseTransform R C dftSize) (frames : TimeFrequencyParameter C)
    (channelIdx m : ℕ) : ℕ → R :=
  s.fftWrapper.inverseTransform (frames m channelIdx)

/-- What a frame does to the buffers. -/
theorem processFrame_spec (s : TimeFrequencyInverseTransform R C dftSize) (dftPtr : ℕ → C)
    (row calcBuffer : ℕ → R) :
    ∃ row' calcBuffer', s.processFrame dftPtr row calcBuffer = .ok (row', calcBuffer') ∧
      (∀ i, i < dftSize → calcBuffer' i =
        if i < dftSize - s.hopSize then s.fftWrapper.inverseTransform dftPtr i + row i
        else s.fftWrapper.inverseTransform dftPtr i) ∧
      ∀ i, i < dftSize - s.hopSize → row' i = calcBuffer' (s.hopSize + i) := by
  refine ⟨_, _, rfl, fun i hi => ?_, fun i hi => if_pos hi⟩
  have hoverwrite : overwrite calcBuffer 0 dftSize (s.fftWrapper.inverseTransform dftPtr) i =
      s.fftWrapper.inverseTransform dftPtr i := by
    have h := overwrite_inside calcBuffer (s.fftWrapper.inverseTransform dftPtr) 0 hi
    rw [Nat.zero_add] at h
    exact h
  dsimp only
  rw [hoverwrite]

/-- The frames of a period: the buffer goes on to the next period, and the calculation buffer
has the sum of the frames from the last one on. -/
theorem processFrames_spec (s : TimeFrequencyInverseTransform R C dftSize)
    (X : ℕ → ℕ → C) (n : ℕ) {M : ℕ} {row : ℕ → R} (calcBuffer : ℕ → R)
    (h : Accumulates s.hopSize dftSize (fun m => s.fftWrapper.inverseTransform (X m)) M row) :
    ∃ row' calcBuffer',
      s.processFrames ((List.range' M n).map X) (row, calcBuffer) = .ok (row', calcBuffer') ∧
      Accumulates s.hopSize dftSize (fun m => s.fftWrapper.inverseTransform (X m)) (M + n) row' ∧
      (0 < n → ∀ i, i < dftSize → calcBuffer' i =
        leading s.hopSize dftSize (fun m => s.fftWrapper.inverseTransform (X m)) (M + n)
          ((M + n - 1) * s.hopSize + i)) := by
  induction n generalizing M row calcBuffer with
  | zero => exact ⟨row, calcBuffer, rfl, h, fun hn => absurd hn (Nat.lt_irrefl 0)⟩
  | succ n ih =>
    obtain ⟨row', calcBuffer', hframe, hcalc, hrow⟩ := s.processFrame_spec (X M) row calcBuffer
    have hnext : Accumulates s.hopSize dftSize (fun m => s.fftWrapper.inverseTransform (X m))
        (M + 1) row' := by
      refine h.step fun i hi => ?_
      rw [hrow i hi]
      exact hcalc (s.hopSize + i) (by omega)
    obtain ⟨row'', calcBuffer'', hframes, hrow', hcalc'⟩ := ih calcBuffer' hnext
    have hcount : M + 1 + n = M + (n + 1) := by omega
    rw [hcount] at hrow' hcalc'
    refine ⟨row'', calcBuffer'', ?_, hrow', fun _ i hi => ?_⟩
    · rw [List.range'_succ, List.map_cons, processFrames, hframe]
      exact hframes
    · -- the calculation buffer is that of the last frame
      by_cases hn : n = 0
      · subst hn
        cases hframes
        rw [hcalc i hi]
        exact h.sum hi
      · exact hcalc' (Nat.pos_of_ne_zero hn) i hi

/-- The buffers keep what the first `M` frames contribute to later periods. -/
def Holds (s : TimeFrequencyInverseTransform R C dftSize) (frames : TimeFrequencyParameter C)
    (M : ℕ) (buffer : ℕ → ℕ → R) (channels : List ℕ) : Prop :=
  ∀ channelIdx ∈ channels,
    Accumulates s.hopSize dftSize (s.transformed frames channelIdx) M (buffer channelIdx)

/-- The output signals have the sum of the frames from the last one of the period on, as far as
this frame reaches. -/
def LastFrame (s : TimeFrequencyInverseTransform R C dftSize) (frames : TimeFrequencyParameter C)
    (M : ℕ) (signals : ℕ → ℕ → R) (channels : List ℕ) : Prop :=
  0 < s.framesPerPeriod → ∀ channelIdx ∈ channels, ∀ k, k < s.period → k < dftSize →
    signals channelIdx k = s.scalingFactor *
      leading s.hopSize dftSize (s.transformed frames channelIdx) (M + s.framesPerPeriod)
        ((M + s.framesPerPeriod - 1) * s.hopSize + k)

theorem processChannels_spec (frames : TimeFrequencyParameter C) (M : ℕ)
    (output : AudioChannels R) {channels : List ℕ} (hnodup : channels.Nodup)
    (s : TimeFrequencyInverseTransform R C dftSize) (signals : ℕ → ℕ → R)
    (h : s.Holds frames M s.accumulationBuffer channels) :
    ∃ buffer calcBuffer signals',
      processChannels (fun frameIdx => frames (M + frameIdx)) output channels s signals =
        .ok ({ s with accumulationBuffer := buffer, calcBuffer := calcBuffer }, signals') ∧
      s.Holds frames (M + s.framesPerPeriod) buffer channels ∧
      s.LastFrame frames M signals' channels ∧
      ∀ channelIdx ∉ channels, buffer channelIdx = s.accumulationBuffer channelIdx ∧
        signals' channelIdx = signals channelIdx := by
  induction channels generalizing s signals with
  | nil =>
    exact ⟨s.accumulationBuffer, s.calcBuffer, signals, rfl, List.forall_mem_nil _,
      fun _ => List.forall_mem_nil _, fun _ _ => ⟨rfl, rfl⟩⟩
  | cons channelIdx rest ih =>
    obtain ⟨hnotmem, hnodup⟩ := List.nodup_cons.mp hnodup
    obtain ⟨hfirst, hrest⟩ := List.forall_mem_cons.mp h
    obtain ⟨row, calcBuffer, hframes, hrow, hcalc⟩ := s.processFrames_spec
      (fun m => frames m channelIdx) s.framesPerPeriod s.calcBuffer hfirst
    have hlist :
        (List.range s.framesPerPeriod).map (fun frameIdx => frames (M + frameIdx) channelIdx) =
        (List.range' M s.framesPerPeriod).map fun m => frames m channelIdx := by
      rw [List.range'_eq_map_range, List.map_map]
      rfl
    -- The output port is aligned, hence there is no error.
    obtain ⟨signal, hsignal, hvalue⟩ : ∃ signal, vectorMultiplyConstant s.scalingFactor
        ⟨0, calcBuffer⟩ (output.channel channelIdx) s.period cVectorAlignmentSamples = .ok signal ∧
          ∀ k, k < s.period → signal k = s.scalingFactor * calcBuffer k :=
      ⟨_, vectorMultiplyConstant_of_aligned s.scalingFactor s.period
        (checkAlignment_default (Nat.dvd_zero cVectorAlignmentSamples))
        (checkAlignment_default (output.aligned channelIdx)), fun k hk => if_pos hk⟩
    have hkept : ({ s with
        accumulationBuffer := Function.update s.accumulationBuffer channelIdx row
        calcBuffer := calcBuffer } : TimeFrequencyInverseTransform R C dftSize).Holds frames M
        (Function.update s.accumulationBuffer channelIdx row) rest := by
      intro ch hch
      have hne : ch ≠ channelIdx := fun heq => hnotmem (heq ▸ hch)
      rw [Function.update_of_ne hne]
      exact hrest ch hch
    obtain ⟨buffer, calcBuffer', signals', hprocess, hholds, hlast, hother⟩ :=
      ih hnodup _ (Function.update signals channelIdx signal) hkept
    obtain ⟨hbuffer, hsignals⟩ := hother channelIdx hnotmem
    dsimp only at hbuffer
    rw [Function.update_self] at hbuffer hsignals
    refine ⟨buffer, calcBuffer', signals', ?_, ?_, fun hpos => ?_, fun ch hch => ?_⟩
    · rw [processChannels, hlist, hframes]
      show (throwOnError _ (vectorMultiplyConstant s.scalingFactor ⟨0, calcBuffer⟩
        (output.channel channelIdx) s.period cVectorAlignmentSamples)).bind _ = _
      rw [hsignal]
      exact hprocess
    · refine List.forall_mem_cons.mpr ⟨?_, hholds⟩
      rw [hbuffer]
      exact hrow
    · refine List.forall_mem_cons.mpr ⟨fun k hk hsize => ?_, hlast hpos⟩
      rw [hsignals, hvalue k hk, hcalc hpos k hsize]
      rfl
    · rw [List.mem_cons, not_or] at hch
      obtain ⟨hbuffer', hsignals'⟩ := hother ch hch.2
      dsimp only at hbuffer'
      rw [Function.update_of_ne hch.1] at hbuffer' hsignals'
      exact ⟨hbuffer', hsignals'⟩

/-- **One period**: the output signals begin with the last frame of the period. -/
theorem process_spec (s : TimeFrequencyInverseTransform R C dftSize)
    (frames : TimeFrequencyParameter C) (M : ℕ) (output : AudioChannels R)
    (h : s.Holds frames M s.accumulationBuffer (List.range s.numberOfChannels)) :
    ∃ buffer calcBuffer signals,
      s.process (fun frameIdx => frames (M + frameIdx)) output =
        .ok ({ s with accumulationBuffer := buffer, calcBuffer := calcBuffer }, signals) ∧
      s.Holds frames (M + s.framesPerPeriod) buffer (List.range s.numberOfChannels) ∧
      s.LastFrame frames M signals (List.range s.numberOfChannels) := by
  obtain ⟨buffer, calcBuffer, signals, hprocess, hholds, hlast, -⟩ :=
    processChannels_spec frames M output List.nodup_range s
      (fun channelIdx => (output.channel channelIdx).data) h
  exact ⟨buffer, calcBuffer, signals, hprocess, hholds, hlast⟩

/-! ### Runs -/

/-- A run does not fail, and each period keeps what is to come. -/
theorem run_spec (s : TimeFrequencyInverseTransform R C dftSize)
    (hzero : s.accumulationBuffer = fun _ _ => 0) (frames : TimeFrequencyParameter C)
    (outputs : ℕ → AudioChannels R) (t : ℕ) :
    ∃ buffer calcBuffer signals, s.run frames outputs t =
        .ok ({ s with accumulationBuffer := buffer, calcBuffer := calcBuffer }, signals) ∧
      s.Holds frames (t * s.framesPerPeriod) buffer (List.range s.numberOfChannels) := by
  induction t with
  | zero =>
    refine ⟨s.accumulationBuffer, s.calcBuffer, fun _ _ => 0, rfl, fun channelIdx _ => ?_⟩
    rw [Nat.zero_mul, hzero]
    exact accumulates_zero fun _ => rfl
  | succ t ih =>
    obtain ⟨buffer, calcBuffer, signals, hrun, hholds⟩ := ih
    obtain ⟨buffer', calcBuffer', signals', hprocess, hholds', -⟩ := process_spec
      { s with accumulationBuffer := buffer, calcBuffer := calcBuffer } frames
      (t * s.framesPerPeriod) (outputs t) hholds
    refine ⟨buffer', calcBuffer', signals', ?_, ?_⟩
    · rw [run, hrun]
      exact hprocess
    · rw [Nat.succ_mul]
      exact hholds'

/-- The output signals of a period. -/
theorem run_succ_spec (s : TimeFrequencyInverseTransform R C dftSize)
    (hzero : s.accumulationBuffer = fun _ _ => 0) (frames : TimeFrequencyParameter C)
    (outputs : ℕ → AudioChannels R) (t : ℕ) :
    ∃ s' signals, s.run frames outputs (t + 1) = .ok (s', signals) ∧
      s.LastFrame frames (t * s.framesPerPeriod) signals (List.range s.numberOfChannels) := by
  obtain ⟨buffer, calcBuffer, signals, hrun, hholds⟩ := s.run_spec hzero frames outputs t
  obtain ⟨buffer', calcBuffer', signals', hprocess, -, hlast⟩ := process_spec
    { s with accumulationBuffer := buffer, calcBuffer := calcBuffer } frames
    (t * s.framesPerPeriod) (outputs t) hholds
  refine ⟨{ s with accumulationBuffer := buffer', calcBuffer := calcBuffer' }, signals', ?_, hlast⟩
  rw [run, hrun]
  exact hprocess

/-- **Overlap-add**: each sample of the output signals is the sum of the samples of all frames,
with the requested normalisation. -/
def OverlapAdds (s : TimeFrequencyInverseTransform R C dftSize) (inverseDft : (ℕ → C) → ℕ → R)
    (scaling : R) (frames : TimeFrequencyParameter C) (outputs : ℕ → AudioChannels R) : Prop :=
  ∀ t, ∃ s' signals, s.run frames outputs (t + 1) = .ok (s', signals) ∧
    ∀ channelIdx, channelIdx < s.numberOfChannels → ∀ k, k < s.period →
      signals channelIdx k = scaling *
        overlapAdd s.hopSize dftSize (fun m => inverseDft (frames m channelIdx)) (t * s.period + k)

/-- What the constructor makes of its arguments. -/
theorem create_eq_ok {sqrt : R → R} {period numberOfChannels hopSize : ℕ}
    {fftWrapper : FftWrapper R C dftSize} {normalisation : Normalisation}
    {s : TimeFrequencyInverseTransform R C dftSize}
    (h : create sqrt period numberOfChannels hopSize fftWrapper normalisation = .ok s) :
    hopSize ∣ period ∧ s = {
      period := period
      numberOfChannels := numberOfChannels
      framesPerPeriod := period / hopSize
      hopSize := hopSize
      accumulationBuffer := fun _ _ => 0
      fftWrapper := fftWrapper
      calcBuffer := fun _ => 0
      scalingFactor :=
        calculateScalingFactor sqrt normalisation fftWrapper.inverseScalingFactor dftSize } := by
  unfold create at h
  split at h
  · cases h
  next hmod =>
    cases h
    exact ⟨Nat.dvd_of_mod_eq_zero (not_not.mp hmod), rfl⟩

/-- The normalisation does not suppress the signal. -/
theorem desiredScaling_ne_zero {sqrt : R → R} (fftWrapper : FftWrapper R C dftSize)
    (hsqrt : sqrt (dftSize : R) * sqrt dftSize = dftSize) (normalisation : Normalisation) :
    desiredScaling sqrt normalisation dftSize ≠ 0 := by
  have hsize := fftWrapper.dftSize_ne_zero
  cases normalisation with
  | One => exact one_ne_zero
  | Unitary =>
    refine one_div_ne_zero fun hzero => hsize ?_
    rw [← hsqrt, hzero, zero_mul]
  | OneOverN => exact one_div_ne_zero hsize

/-- An impulse at the beginning of the first frame. -/
def impulse (R : Type) [Field R] (m n : ℕ) : R := if m = 0 ∧ n = 0 then 1 else 0

/-- The frames that are transformed to it. -/
def impulseFrame (fftWrapper : FftWrapper R C dftSize) (m : ℕ) : ℕ → C :=
  Dft.spectrumOf C fftWrapper.rootOfUnity dftSize (impulse R m)

theorem inverseTransform_impulseFrame (fftWrapper : FftWrapper R C dftSize) (m : ℕ) {n : ℕ}
    (hn : n < dftSize) : fftWrapper.inverseTransform (impulseFrame fftWrapper m) n =
      fftWrapper.inverseScalingFactor * (dftSize * impulse R m n) :=
  fftWrapper.inverse_exact (impulse R m) _ (fun _ _ => rfl) n hn

/-- With several frames in each period, the last one of the first period does not have it. -/
theorem leading_impulse (fftWrapper : FftWrapper R C dftSize) {hopSize M : ℕ} (hpos : 0 < hopSize)
    (hM : 1 < M) :
    leading hopSize dftSize (fun m => fftWrapper.inverseTransform (impulseFrame fftWrapper m)) M
      ((M - 1) * hopSize) = 0 := by
  refine Finset.sum_eq_zero fun m _ => ?_
  unfold contribution
  split
  next hinside =>
    have hlater : 0 < (M - 1) * hopSize := Nat.mul_pos (by omega) hpos
    have hnot : ¬ (m = 0 ∧ (M - 1) * hopSize - m * hopSize = 0) := by
      rintro ⟨rfl, hzero⟩
      rw [Nat.zero_mul] at hzero
      omega
    have hindex : (M - 1) * hopSize - m * hopSize < dftSize := by omega
    dsimp only
    rw [inverseTransform_impulseFrame fftWrapper m hindex, impulse, if_neg hnot, mul_zero, mul_zero]
  next => rfl

/-- Without channels, there is nothing to add. -/
theorem overlapAdds_of_noChannels (s : TimeFrequencyInverseTransform R C dftSize)
    (hzero : s.accumulationBuffer = fun _ _ => 0) (hnone : s.numberOfChannels = 0)
    (inverseDft : (ℕ → C) → ℕ → R) (scaling : R) (frames : TimeFrequencyParameter C)
    (outputs : ℕ → AudioChannels R) : s.OverlapAdds inverseDft scaling frames outputs := by
  intro t
  obtain ⟨s', signals, hrun, -⟩ := s.run_succ_spec hzero frames outputs t
  refine ⟨s', signals, hrun, fun channelIdx hchannel => ?_⟩
  rw [hnone] at hchannel
  exact absurd hchannel (Nat.not_lt_zero channelIdx)

section Configurations

variable (s : TimeFrequencyInverseTransform R C dftSize)
  (hzero : s.accumulationBuffer = fun _ _ => 0) (hperiod : s.period = s.hopSize * s.framesPerPeriod)
  (hpos : 0 < s.hopSize) (hsize : s.hopSize ≤ dftSize) {inverseDft : (ℕ → C) → ℕ → R}
  (hfft : ∀ X n, n < dftSize →
    s.fftWrapper.inverseTransform X n = s.fftWrapper.inverseScalingFactor * inverseDft X n)
  (outputs : ℕ → AudioChannels R)

include hzero hperiod hpos hsize hfft

/-- One frame in each period. -/
theorem overlapAdds_of_le (hle : s.period ≤ s.hopSize) (frames : TimeFrequencyParameter C) :
    s.OverlapAdds inverseDft (s.scalingFactor * s.fftWrapper.inverseScalingFactor) frames
      outputs := by
  intro t
  obtain ⟨s', signals, hrun, hlast⟩ := s.run_succ_spec hzero frames outputs t
  refine ⟨s', signals, hrun, fun channelIdx hchannel k hk => ?_⟩
  have hone : s.framesPerPeriod = 1 := by
    have hne : s.framesPerPeriod ≠ 0 := by
      intro hnone
      rw [hnone, Nat.mul_zero] at hperiod
      omega
    have hmul : s.hopSize * s.framesPerPeriod ≤ s.hopSize * 1 := by omega
    have hone := Nat.le_of_mul_le_mul_left hmul hpos
    omega
  rw [hone, Nat.mul_one] at hperiod
  have hsignal := hlast (by omega) channelIdx (List.mem_range.mpr hchannel) k hk (by omega)
  have hfirst : t * s.framesPerPeriod + s.framesPerPeriod = t + 1 := by rw [hone, Nat.mul_one]
  have hbefore : t * s.hopSize + k < (t + 1) * s.hopSize := by
    rw [Nat.succ_mul]
    omega
  have hexact : ∀ m n, n < dftSize → s.transformed frames channelIdx m n =
      s.fftWrapper.inverseScalingFactor * inverseDft (frames m channelIdx) n :=
    fun m n hn => hfft (frames m channelIdx) n hn
  rw [hsignal, hfirst, Nat.add_sub_cancel, leading_eq_overlapAdd hpos hbefore,
    overlapAdd_congr hexact, overlapAdd_mul_left, hperiod, mul_assoc]

/-- Several frames in each period: an impulse in the first one is lost. -/
theorem not_overlapAdds_of_lt (hlt : s.hopSize < s.period) (hchannels : s.numberOfChannels ≠ 0)
    {scaling : R} (hscaling : scaling ≠ 0) :
    ¬ s.OverlapAdds inverseDft scaling (fun m _ => impulseFrame s.fftWrapper m) outputs := by
  intro h
  have hframes : 1 < s.framesPerPeriod := by
    by_contra hle
    have hmul : s.hopSize * s.framesPerPeriod ≤ s.hopSize * 1 := Nat.mul_le_mul_left _ (by omega)
    omega
  have hfirst : 0 < s.numberOfChannels := Nat.pos_of_ne_zero hchannels
  obtain ⟨s', signals, hrun, hsum⟩ := h 0
  obtain ⟨s'', signals', hrun', hlast⟩ :=
    s.run_succ_spec hzero (fun m _ => impulseFrame s.fftWrapper m) outputs 0
  rw [hrun] at hrun'
  cases hrun'
  have hcode := hlast (by omega) 0 (List.mem_range.mpr hfirst) 0 (by omega) (by omega)
  -- the output begins with the last frame of the period, in which the impulse is not
  have hlost : leading s.hopSize dftSize
      (s.transformed (fun m _ => impulseFrame s.fftWrapper m) 0) s.framesPerPeriod
        ((s.framesPerPeriod - 1) * s.hopSize) = 0 := leading_impulse s.fftWrapper hpos hframes
  rw [Nat.zero_mul, Nat.zero_add, Nat.add_zero, hlost, mul_zero] at hcode
  have hsample : overlapAdd s.hopSize dftSize
      (fun m => inverseDft (impulseFrame s.fftWrapper m)) 0 = dftSize := by
    have hvalue := hfft (impulseFrame s.fftWrapper 0) 0 (by omega)
    rw [inverseTransform_impulseFrame s.fftWrapper 0 (by omega), impulse, if_pos ⟨rfl, rfl⟩,
      mul_one] at hvalue
    rw [overlapAdd_eq_leading, leading, Finset.sum_range_one, contribution,
      if_pos ⟨by omega, by omega⟩, Nat.zero_mul]
    exact (mul_left_cancel₀ s.fftWrapper.inverse_ne_zero hvalue).symm
  have hclaim := hsum 0 hfirst 0 (by omega)
  rw [Nat.zero_mul, Nat.add_zero, hcode, hsample] at hclaim
  exact mul_ne_zero hscaling s.fftWrapper.dftSize_ne_zero hclaim.symm

end Configurations

/-- **The output is the sum of all frames** for all sequences of frames if and only if the periods
contain one frame at most, or there are no channels. -/
theorem overlapAdds_iff {sqrt : R → R} (hsqrt : sqrt (dftSize : R) * sqrt dftSize = dftSize)
    {period numberOfChannels hopSize : ℕ} {fftWrapper : FftWrapper R C dftSize}
    {normalisation : Normalisation} {s : TimeFrequencyInverseTransform R C dftSize}
    (hs : create sqrt period numberOfChannels hopSize fftWrapper normalisation = .ok s)
    (hpos : 0 < hopSize) (hsize : hopSize ≤ dftSize) {inverseDft : (ℕ → C) → ℕ → R}
    (hfft : ∀ X n, n < dftSize →
      fftWrapper.inverseTransform X n = fftWrapper.inverseScalingFactor * inverseDft X n) :
    (∀ frames outputs,
      s.OverlapAdds inverseDft (desiredScaling sqrt normalisation dftSize) frames outputs) ↔
      period ≤ hopSize ∨ numberOfChannels = 0 := by
  obtain ⟨hdvd, rfl⟩ := create_eq_ok hs
  have hperiod : period = hopSize * (period / hopSize) := (Nat.mul_div_cancel' hdvd).symm
  constructor
  · intro h
    by_contra hnot
    rw [not_or, Nat.not_le] at hnot
    -- any output buffers will do, as their contents are replaced
    let outputs : ℕ → AudioChannels R := fun _ =>
      { channel := fun _ => ⟨0, fun _ => 0⟩, aligned := fun _ => Nat.dvd_zero _ }
    exact not_overlapAdds_of_lt _ rfl hperiod hpos hsize hfft outputs hnot.1 hnot.2
      (desiredScaling_ne_zero fftWrapper hsqrt normalisation) (h _ outputs)
  · intro hcondition frames outputs
    rcases hcondition with hle | hnone
    · have hscaling : calculateScalingFactor sqrt normalisation fftWrapper.inverseScalingFactor
          dftSize * fftWrapper.inverseScalingFactor =
            desiredScaling sqrt normalisation dftSize :=
        div_mul_cancel₀ _ fftWrapper.inverse_ne_zero
      rw [← hscaling]
      exact overlapAdds_of_le _ rfl hperiod hpos hsize hfft outputs hle frames
    · exact overlapAdds_of_noChannels _ rfl hnone _ _ frames outputs

/-- The ideal wrapper for frames of four samples. -/
noncomputable def ideal4 : FftWrapper ℝ ℂ 4 :=
  .unscaled 4 (by decide)

/-- The inverse transform without a factor. -/
noncomputable def inverseDft4 (X : ℕ → ℂ) (n : ℕ) : ℝ :=
  (Dft.dft (FftWrapper.idealRoot 4)⁻¹ 4 (FftWrapper.completed 4 X) n).re

theorem inverseTransform_ideal4 (X : ℕ → ℂ) (n : ℕ) :
    ideal4.inverseTransform X n = ideal4.inverseScalingFactor * inverseDft4 X n := rfl

theorem sqrt_dftSize : Real.sqrt (4 : ℕ) * Real.sqrt (4 : ℕ) = (4 : ℕ) :=
  Real.mul_self_sqrt (Nat.cast_nonneg 4)

theorem overlapAdds_iff_oneFrame :
    ∃ s, create Real.sqrt 2 1 2 ideal4 .OneOverN = .ok s ∧
      ((∀ frames outputs,
        s.OverlapAdds inverseDft4 (desiredScaling Real.sqrt .OneOverN 4) frames outputs) ↔
          2 ≤ 2 ∨ 1 = 0) :=
  ⟨_, rfl, overlapAdds_iff sqrt_dftSize rfl (by decide) (by decide)
    fun X n _ => inverseTransform_ideal4 X n⟩

/-- With two frames in each period, an impulse at the beginning of the first one is not in the
output signal. -/
theorem not_overlapAdds_twoFrames :
    ∃ s, create Real.sqrt 4 1 2 ideal4 .OneOverN = .ok s ∧
      ¬ s.OverlapAdds inverseDft4 (desiredScaling Real.sqrt .OneOverN 4)
        (fun m _ => impulseFrame ideal4 m)
        (fun _ => { channel := fun _ => ⟨0, fun _ => 0⟩, aligned := fun _ => Nat.dvd_zero _ }) :=
  ⟨_, rfl, not_overlapAdds_of_lt _ rfl rfl (by decide) (by decide)
    (fun X n _ => inverseTransform_ideal4 X n) _ (by decide) (by decide)
    (desiredScaling_ne_zero ideal4 sqrt_dftSize .OneOverN)⟩

end TimeFrequencyInverseTransform

end Visr
