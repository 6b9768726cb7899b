import Mathlib.Algebra.Order.Floor.Ring
import Visr.Libefl.VectorRamp
import Visr.Librbbl.CircularBuffer

/-!
# Delay lines

The samples of several channels are recorded in a circular buffer.  Delayed samples are read
by Lagrange interpolation, with a delay and a gain that change within each block.

## Main results

* `MultichannelDelayLine.interpolate_spec` — delay and gain lead on a straight line from the
  first to the last value given.
-/

namespace Visr

variable {K : Type} [Field K]

/-! ### Lagrange coefficients -/

namespace LagrangeCoefficientCalculator

/-- The offsets of the coefficients, which are stored in reversed order. -/
def offset (K : Type) [Field K] (N idx : ℕ) : K := 1 / (2 : ℕ) * N - idx

def scaleFactor (K : Type) [Field K] (N idx : ℕ) : K :=
  let acc := (List.range (N + 1)).foldl (fun acc runIdx =>
    if runIdx ≠ idx then acc * (offset K N runIdx - offset K N idx) else acc) 1
  1 / acc

/-- The products of neighbours; of an odd number, the last one remains. -/
def products : List K → List K
  | a :: b :: coeffs => a * b :: products coeffs
  | coeffs => coeffs

/-- Each of two neighbours is replaced by the other one times the product of the rest. -/
def shuffle : List K → List K → List K
  | a :: b :: coeffs, p :: prod => b * p :: a * p :: shuffle coeffs prod
  | _, prod => prod

/-- The recursion has at most as many stages as there are coefficients. -/
def multiplyAndShuffle : ℕ → List K → List K
  | 0, coeffs => coeffs
  | stages + 1, coeffs =>
    if 2 < coeffs.length then shuffle coeffs (multiplyAndShuffle stages (products coeffs))
    else
      match coeffs with
      | [a, b] => [b, a]
      | _ => [1]

def calculateCoefficients (N : ℕ) (mu : K) : List K :=
  let internalCoeffs :=
    multiplyAndShuffle (N + 1) ((List.range (N + 1)).map fun idx => offset K N idx - mu)
  List.zipWith (· * ·) ((List.range (N + 1)).map (scaleFactor K N)) internalCoeffs

end LagrangeCoefficientCalculator

/-! ### Fractional delays -/

/-- The interpolator for blocks of at most `maxNumSamples` samples. -/
structure LagrangeInterpolator where
  order : ℕ
  maxNumSamples : ℕ

/-- `FractionalDelayFactory::create()`, which knows the algorithms by their names. -/
def FractionalDelayFactory.create (name : String) (maxNumSamples : ℕ) :
    Option LagrangeInterpolator :=
  let orders : List (String × ℕ) :=
    [("nearestSample", 0), ("lagrangeOrder0", 0), ("lagrangeOrder1", 1), ("lagrangeOrder2", 2),
      ("lagrangeOrder3", 3), ("lagrangeOrder4", 4), ("lagrangeOrder5", 5), ("lagrangeOrder6", 6),
      ("lagrangeOrder7", 7), ("lagrangeOrder8", 8), ("lagrangeOrder9", 9)]
  (orders.lookup name).map fun order => ⟨order, maxNumSamples⟩

namespace LagrangeInterpolator

/-- The method delay, in samples. -/
def methodDelay (K : Type) [Field K] (q : LagrangeInterpolator) : K := 1 / (2 : ℕ) * q.order

variable [LinearOrder K] [FloorRing K]

/-- The nearest sample; the conversion to an integer cuts towards zero. -/
def baseOffset (delay : K) : ℤ := if 0 < delay then ⌊delay + 1 / (2 : ℕ)⌋ else ⌈delay - 1 / (2 : ℕ)⌉

/-- A sample of the result, for elements of the arrays of delays and gains. -/
def sample (q : LagrangeInterpolator) (basePointer : ℤ → K) (delay gain : K) : K :=
  let intersamplePosition := delay - (baseOffset delay : K)
  let lagrangeCoefficients :=
    LagrangeCoefficientCalculator.calculateCoefficients q.order intersamplePosition
  let samples := (List.range (q.order + 1)).map fun idx => basePointer (baseOffset delay + idx)
  gain * (List.zipWith (· * ·) lagrangeCoefficients.reverse samples).sum

theorem sample_eq (q : LagrangeInterpolator) (basePointer : ℤ → K) (delay gain : K) :
    q.sample basePointer delay gain = gain * (List.zipWith (· * ·)
      (LagrangeCoefficientCalculator.calculateCoefficients q.order
        (delay - (baseOffset delay : K))).reverse
      ((List.range (q.order + 1)).map fun idx => basePointer (baseOffset delay + (idx : ℕ)))).sum := by
  have hcast : (List.range (q.order + 1)).flatMap (fun a : ℕ => [(a : ℤ)]) =
      (List.range (q.order + 1)).map fun a : ℕ => (a : ℤ) := List.flatMap_pure_eq_map _ _
  unfold sample
  simp only [List.pure_def, List.bind_eq_flatMap, hcast, List.map_map, Function.comp_def]

/-- Only the first `numSamples` elements of the result are stored. -/
def interpolate (q : LagrangeInterpolator) (basePointer : ℤ → K) (numSamples : ℕ)
    (startDelay endDelay startGain endGain : K) : Except Exception (ℕ → K) := do
  if numSamples > q.maxNumSamples then
    throw (.invalidArgument ("LagrangeInterpolator::interpolate(): number of elements " ++
      "exceeds maximum admissible number."))
  let gains ← throwOnError ("LagrangeInterpolator::interpolate(): Error during gain ramp " ++
      "computation:" ++ errorMessage .alignmentError)
    (vectorRamp ⟨0, fun _ => 0⟩ numSamples startGain endGain false true 0)
  let adjustedStartTimeOffset := -((numSamples + q.order : ℕ) : K) - startDelay
  let adjustedEndTimeOffset := -(q.order : K) - endDelay
  let delays ← throwOnError ("LagrangeInterpolator::interpolate(): Error during delay ramp " ++
      "computation:" ++ errorMessage .alignmentError)
    (vectorRamp ⟨0, fun _ => 0⟩ numSamples adjustedStartTimeOffset adjustedEndTimeOffset
      false true 0)
  pure fun sampleIdx => q.sample basePointer (delays sampleIdx) (gains sampleIdx)

/-- In a block, delay and gain lead on a straight line from the values before the first sample
to those of the last one.  The offsets are relative to the end of the block. -/
theorem interpolate_eq [CharZero K] {q : LagrangeInterpolator} {numSamples : ℕ}
    (hnum : numSamples ≤ q.maxNumSamples) (basePointer : ℤ → K)
    (startDelay endDelay startGain endGain : K) :
    ∃ result, q.interpolate basePointer numSamples startDelay endDelay startGain endGain =
        .ok result ∧
      ∀ idx < numSamples, result idx = q.sample basePointer
        (((idx + 1 : ℕ) : K) - ((numSamples + q.order : ℕ) : K) -
          between startDelay endDelay (((idx + 1 : ℕ) : K) / numSamples))
        (between startGain endGain (((idx + 1 : ℕ) : K) / numSamples)) := by
  obtain ⟨gains, hgains, hgain⟩ :=
    vectorRamp_between ⟨0, fun _ => 0⟩ (rfl : checkAlignment 0 0 = true) numSamples startGain
      endGain
  obtain ⟨delays, hdelays, hdelay⟩ :=
    vectorRamp_between ⟨0, fun _ => 0⟩ (rfl : checkAlignment 0 0 = true) numSamples
      (-((numSamples + q.order : ℕ) : K) - startDelay) (-(q.order : K) - endDelay)
  refine ⟨fun idx => q.sample basePointer (delays idx) (gains idx), ?_, fun idx hidx => ?_⟩
  · unfold interpolate
    rw [if_neg (Nat.not_lt.mpr hnum)]
    show (throwOnError _ (vectorRamp _ numSamples startGain endGain false true 0) >>= _) = _
    rw [hgains]
    show (throwOnError _ (vectorRamp _ numSamples (-((numSamples + q.order : ℕ) : K) - startDelay)
      (-(q.order : K) - endDelay) false true 0) >>= _) = _
    rw [hdelays]
    rfl
  · -- the ramps have reached their ends after the last sample
    have hne : (numSamples : K) ≠ 0 := Nat.cast_ne_zero.mpr (by omega)
    show q.sample basePointer (delays idx) (gains idx) = _
    rw [hgain idx hidx, hdelay idx hidx]
    congr 1
    unfold between
    push_cast
    field_simp
    ring

end LagrangeInterpolator

/-! ### The delay line -/

/-- How the delay of the interpolation method is taken into account. -/
inductive MethodDelayPolicy
  | Add
  | Limit
  | Reject
  deriving DecidableEq, Repr

/-- A delay line.  The maximum delay is given in samples. -/
structure MultichannelDelayLine (K : Type) where
  blockLength : ℕ
  samplingFrequency : K
  maxDelaySamples : K
  methodDelayPolicy : MethodDelayPolicy
  ringbuffer : CircularBuffer K
  interpolator : LagrangeInterpolator
  blockLength_le : blockLength ≤ ringbuffer.length
  maxNumSamples_eq : interpolator.maxNumSamples = blockLength

namespace MultichannelDelayLine

variable [LinearOrder K] [FloorRing K]

/-- The constructor.  The length of the buffer is positive because that of a block is. -/
def create (numberOfChannels samplingFrequency blockLength : ℕ) (hblock : 0 < blockLength)
    (maxDelaySeconds : K) (interpolationMethod : String) (methodDelayPolicy : MethodDelayPolicy)
    (alignment : ℕ) : Except Exception (MultichannelDelayLine K) :=
  let maxDelaySamples := ⌈maxDelaySeconds * (samplingFrequency : K)⌉
  match h : FractionalDelayFactory.create interpolationMethod blockLength with
  | none =>
    .error (.invalidArgument "MultichannelDelayLine: interpolator type not implemented.")
  | some interpolator => .ok
    { blockLength := blockLength
      samplingFrequency := samplingFrequency
      maxDelaySamples := maxDelaySamples
      methodDelayPolicy := methodDelayPolicy
      ringbuffer := CircularBuffer.create numberOfChannels (maxDelaySamples.toNat + blockLength)
        alignment (by omega)
      interpolator := interpolator
      blockLength_le := Nat.le_add_left blockLength maxDelaySamples.toNat
      maxNumSamples_eq := by
        obtain ⟨order, -, rfl⟩ := Option.map_eq_some_iff.mp h
        rfl }

def numberOfChannels (line : MultichannelDelayLine K) : ℕ := line.ringbuffer.numberOfChannels

/-- The delay of the interpolation method, in samples. -/
def methodDelay (line : MultichannelDelayLine K) : K := line.interpolator.methodDelay K

/-- Writes a block of samples to each channel. -/
def write (line : MultichannelDelayLine K) (input : ℕ → ℕ → K) (numberOfChannels : ℕ) :
    Except Exception (MultichannelDelayLine K) :=
  if numberOfChannels ≠ line.numberOfChannels then
    .error (.invalidArgument ("MultichannelDelayLine::write(): the number of channels passed " ++
      "differs from the channel number of the delay line."))
  else
    match h : line.ringbuffer.write input numberOfChannels line.blockLength with
    | .error e => .error e
    | .ok ringbuffer => .ok
      { line with
        ringbuffer := ringbuffer
        blockLength_le := by
          rw [(CircularBuffer.eq_of_write_ok h).2]
          exact line.blockLength_le }

/-- From seconds to samples, with the delay of the method taken into account. -/
def adjustDelay (line : MultichannelDelayLine K) (rawDelay : K) : Except Exception K :=
  let delay := rawDelay * line.samplingFrequency
  if delay > line.maxDelaySamples then
    .error (.outOfRange ("LagrangeInterpolator::interpolate(): Delay exceeds the maximum " ++
      "admissible value."))
  else
    match line.methodDelayPolicy with
    | .Add =>
      if delay < -epsilon K then
        .error (.outOfRange ("LagrangeInterpolator::interpolate(): Delay is negative while " ++
          "the \"Add\" strategy is selected."))
      else .ok delay
    | .Limit => .ok (max (delay - line.methodDelay) 0)
    | .Reject =>
      if delay < line.methodDelay then
        .error (.outOfRange ("LagrangeInterpolator::interpolate(): Delay is smaller than the " ++
          "method delay and the \"Reject\" strategy is selected."))
      else .ok (delay - line.methodDelay)

/-- The samples around `mRingbuffer.getReadPointer( channelIdx, 1 )`, at the distance `offset`.
Nothing is promised about positions before the start of the channel. -/
def basePointer (line : MultichannelDelayLine K) (channelIdx : ℕ) (offset : ℤ) : K :=
  let position : ℤ := line.ringbuffer.allocatedLength + line.ringbuffer.writeHeadIndex - 1 + offset
  line.ringbuffer.buffer channelIdx position.toNat

def interpolate (line : MultichannelDelayLine K) (channelIdx numberOfSamples : ℕ)
    (startDelay endDelay startGain endGain : K) : Except Exception (ℕ → K) := do
  if channelIdx ≥ line.numberOfChannels then
    throw (.invalidArgument "MultichannelDelayLine<SampleType>::interpolate()")
  let adjustedStartDelay ← line.adjustDelay startDelay
  let adjustedEndDelay ← line.adjustDelay endDelay
  line.interpolator.interpolate (line.basePointer channelIdx) numberOfSamples
    adjustedStartDelay adjustedEndDelay startGain endGain

/-! ### What is read from the delay line -/

/-- The delays that are not refused. -/
def Admissible (line : MultichannelDelayLine K) (delay : K) : Prop :=
  delay * line.samplingFrequency ≤ line.maxDelaySamples ∧
    match line.methodDelayPolicy with
    | .Add => 0 ≤ delay * line.samplingFrequency
    | .Limit => True
    | .Reject => line.methodDelay ≤ delay * line.samplingFrequency

/-- The policy is to replace the delay by that of the interpolation method. -/
def Limited (line : MultichannelDelayLine K) (delay : K) : Prop :=
  line.methodDelayPolicy = .Limit ∧ delay * line.samplingFrequency < line.methodDelay

/-- What is added to the delay of the method, in samples. -/
def effectiveDelay (line : MultichannelDelayLine K) (delay : K) : K :=
  delay * line.samplingFrequency -
    match line.methodDelayPolicy with
    | .Add => 0
    | .Limit => line.methodDelay
    | .Reject => line.methodDelay

/-- Sample `idx` of the block for a delay and a gain. -/
def sampleAt (line : MultichannelDelayLine K) (channelIdx idx : ℕ) (delay gain : K) : K :=
  line.interpolator.sample (line.basePointer channelIdx)
    (((idx + 1 : ℕ) : K) - ((line.blockLength + line.interpolator.order : ℕ) : K) -
      line.effectiveDelay delay) gain

omit [LinearOrder K] [FloorRing K] in
theorem effectiveDelay_between (line : MultichannelDelayLine K) (a b t : K) :
    between (line.effectiveDelay a) (line.effectiveDelay b) t =
      line.effectiveDelay (between a b t) := by
  unfold effectiveDelay between
  ring

variable [IsStrictOrderedRing K]

omit [FloorRing K] [IsStrictOrderedRing K] in
/-- The delays that are neither refused nor limited form an interval. -/
theorem admissible_iff {line : MultichannelDelayLine K} {delay : K} :
    line.Admissible delay ∧ ¬line.Limited delay ↔
      (match line.methodDelayPolicy with
        | .Add => 0
        | .Limit => line.methodDelay
        | .Reject => line.methodDelay) ≤ delay * line.samplingFrequency ∧
      delay * line.samplingFrequency ≤ line.maxDelaySamples := by
  unfold Admissible Limited
  cases line.methodDelayPolicy with
  | Add => simp [and_comm]
  | Limit => simp [and_comm]
  | Reject => simp [and_comm]

omit [FloorRing K] in
theorem admissible_between {line : MultichannelDelayLine K} {a b t : K}
    (ha : line.Admissible a ∧ ¬line.Limited a) (hb : line.Admissible b ∧ ¬line.Limited b)
    (ht : 0 ≤ t ∧ t ≤ 1) :
    line.Admissible (between a b t) ∧ ¬line.Limited (between a b t) := by
  have hmem := between_mem (admissible_iff.mp ha) (admissible_iff.mp hb) ht
  rw [between_mul] at hmem
  exact admissible_iff.mpr hmem

omit [FloorRing K] in
theorem adjustDelay_eq {line : MultichannelDelayLine K} {delay : K}
    (h : line.Admissible delay ∧ ¬line.Limited delay) :
    line.adjustDelay delay = .ok (line.effectiveDelay delay) := by
  obtain ⟨hlower, hupper⟩ := admissible_iff.mp h
  unfold adjustDelay effectiveDelay
  rw [if_neg (not_lt.mpr hupper)]
  cases hpolicy : line.methodDelayPolicy with
  | Add =>
    have hlower : 0 ≤ delay * line.samplingFrequency := by simpa only [hpolicy] using hlower
    have hepsilon : 0 < epsilon K := epsilon_pos
    have hnot : ¬delay * line.samplingFrequency < -epsilon K := by linarith
    simp only [if_neg hnot, sub_zero]
  | Limit =>
    have hlower : line.methodDelay ≤ delay * line.samplingFrequency := by
      simpa only [hpolicy] using hlower
    simp only [max_eq_left (sub_nonneg.mpr hlower)]
  | Reject =>
    have hlower : line.methodDelay ≤ delay * line.samplingFrequency := by
      simpa only [hpolicy] using hlower
    simp only [if_neg (not_lt.mpr hlower)]

/-- Delay lines that only differ in the samples they hold. -/
structure Alike (line line' : MultichannelDelayLine K) : Prop where
  blockLength : line'.blockLength = line.blockLength
  samplingFrequency : line'.samplingFrequency = line.samplingFrequency
  maxDelaySamples : line'.maxDelaySamples = line.maxDelaySamples
  methodDelayPolicy : line'.methodDelayPolicy = line.methodDelayPolicy
  interpolator : line'.interpolator = line.interpolator
  numberOfChannels : line'.numberOfChannels = line.numberOfChannels

omit [FloorRing K] [IsStrictOrderedRing K] in
theorem Alike.admissible {line line' : MultichannelDelayLine K} (h : Alike line line') {delay : K} :
    line'.Admissible delay ∧ ¬line'.Limited delay ↔ line.Admissible delay ∧ ¬line.Limited delay := by
  unfold Admissible Limited methodDelay
  rw [h.samplingFrequency, h.maxDelaySamples, h.methodDelayPolicy, h.interpolator]

omit [Field K] [LinearOrder K] [FloorRing K] [IsStrictOrderedRing K] in
theorem write_ok (line : MultichannelDelayLine K) (input : ℕ → ℕ → K) :
    ∃ line', line.write input line.numberOfChannels = .ok line' ∧ Alike line line' := by
  have hwrite := CircularBuffer.write_of_le line.blockLength_le input
  unfold write
  rw [if_neg (not_not.mpr rfl)]
  split
  next e he => exact absurd (he.symm.trans hwrite) (by simp)
  next ringbuffer hring =>
    have hchannels : ringbuffer.numberOfChannels = line.ringbuffer.numberOfChannels := by
      rw [(CircularBuffer.eq_of_write_ok hring).2]
      rfl
    exact ⟨_, rfl, ⟨rfl, rfl, rfl, rfl, rfl, hchannels⟩⟩

/-- **One block.**  The delay and the gain of a sample are on the line between the values
given for the start and the end. -/
theorem interpolate_spec {line : MultichannelDelayLine K} {channelIdx : ℕ}
    (hchannel : channelIdx < line.numberOfChannels) {startDelay endDelay : K}
    (hstart : line.Admissible startDelay ∧ ¬line.Limited startDelay)
    (hend : line.Admissible endDelay ∧ ¬line.Limited endDelay) (startGain endGain : K) :
    ∃ result, line.interpolate channelIdx line.blockLength startDelay endDelay startGain endGain =
        .ok result ∧
      ∀ idx < line.blockLength, result idx = line.sampleAt channelIdx idx
        (between startDelay endDelay (((idx + 1 : ℕ) : K) / line.blockLength))
        (between startGain endGain (((idx + 1 : ℕ) : K) / line.blockLength)) := by
  obtain ⟨result, hresult, hsample⟩ :=
    LagrangeInterpolator.interpolate_eq (Nat.le_of_eq line.maxNumSamples_eq.symm)
      (line.basePointer channelIdx) (line.effectiveDelay startDelay)
      (line.effectiveDelay endDelay) startGain endGain
  refine ⟨result, ?_, fun idx hidx => ?_⟩
  · unfold interpolate
    rw [if_neg (Nat.not_le.mpr hchannel), adjustDelay_eq hstart, adjustDelay_eq hend]
    exact hresult
  · rw [hsample idx hidx, effectiveDelay_between]
    rfl

end MultichannelDelayLine

end Visr
