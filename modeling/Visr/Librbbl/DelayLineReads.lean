import Mathlib.Data.Rat.Floor
import Visr.Librbbl.MultichannelDelayLine

/-!
# What a delay line reads

The ring buffer of a delay line is as long as the maximum delay and one block.  The
interpolator reads one more sample for each unit of its order, so the samples for the longest
delays are older than all that are recorded.

## Main results

* `LagrangeInterpolator.mem_readOffsets` — the positions in terms of the delays.
* `MultichannelDelayLine.staysInside_iff` — the delay lines that stay inside.
-/

namespace Visr

variable {K : Type} [Field K] [LinearOrder K] [FloorRing K]

namespace LagrangeInterpolator

/-- The positions relative to the base pointer at which `interpolate()` reads samples. -/
def readOffsets (q : LagrangeInterpolator) (numSamples : ℕ) (startDelay endDelay : K) : List ℤ :=
  if numSamples > q.maxNumSamples then []
  else
    let adjustedStartTimeOffset := -((numSamples + q.order : ℕ) : K) - startDelay
    let adjustedEndTimeOffset := -(q.order : K) - endDelay
    match vectorRamp ⟨0, fun _ => 0⟩ numSamples adjustedStartTimeOffset adjustedEndTimeOffset
        false true 0 with
    | .error _ => []
    | .ok delays =>
      (List.range numSamples).flatMap fun sampleIdx =>
        (List.range (q.order + 1)).map fun idx : ℕ => baseOffset (delays sampleIdx) + idx

omit [LinearOrder K] [FloorRing K] in
/-- The exact time offset of a sample of a block. -/
theorem offset_eq [CharZero K] {numSamples idx : ℕ} (order : ℕ) (hidx : idx < numSamples)
    (startDelay endDelay : K) :
    between (-((numSamples + order : ℕ) : K) - startDelay) (-(order : K) - endDelay)
        (((idx + 1 : ℕ) : K) / numSamples) =
      -(((numSamples - 1 - idx + order : ℕ) : K) +
        between startDelay endDelay (((idx + 1 : ℕ) : K) / numSamples)) := by
  have hne : (numSamples : K) ≠ 0 := Nat.cast_ne_zero.mpr (by omega)
  obtain ⟨rest, rfl⟩ := Nat.exists_eq_add_of_lt hidx
  have hrest : idx + rest + 1 - 1 - idx + order = rest + order := by omega
  rw [hrest]
  unfold between
  push_cast at hne ⊢
  field_simp
  ring

/-- Every result is computed from `order + 1` samples, the first of which is the nearest one. -/
theorem mem_readOffsets {q : LagrangeInterpolator} {numSamples : ℕ}
    (hnum : numSamples ≤ q.maxNumSamples) {startDelay endDelay : K} {offset : ℤ} :
    offset ∈ q.readOffsets numSamples startDelay endDelay ↔
      ∃ sampleIdx < numSamples, ∃ idx ≤ q.order, offset =
        baseOffset (-(((numSamples - 1 - sampleIdx + q.order : ℕ) : K) +
          between startDelay endDelay (((sampleIdx + 1 : ℕ) : K) / numSamples))) + idx := by
  -- the ramp of the delays is a straight line
  obtain ⟨delays, hdelays, hdelay⟩ :=
    vectorRamp_between ⟨0, fun _ => 0⟩ (rfl : checkAlignment 0 0 = true) numSamples
      (-((numSamples + q.order : ℕ) : K) - startDelay) (-(q.order : K) - endDelay)
  unfold readOffsets
  rw [if_neg (Nat.not_lt.mpr hnum)]
  simp only [hdelays, List.mem_flatMap, List.mem_map, List.mem_range, Nat.lt_succ_iff]
  constructor
  · rintro ⟨sampleIdx, hsample, idx, hidx, rfl⟩
    exact ⟨sampleIdx, hsample, idx, hidx,
      by rw [hdelay sampleIdx hsample, offset_eq q.order hsample]⟩
  · rintro ⟨sampleIdx, hsample, idx, hidx, rfl⟩
    exact ⟨sampleIdx, hsample, idx, hidx,
      by rw [hdelay sampleIdx hsample, offset_eq q.order hsample]⟩

/-- Rounding, for times that are not after the base pointer by more than the precision of the
numbers. -/
theorem baseOffset_neg_add [IsStrictOrderedRing K] (m : ℕ) {d : K} (hd : -(1 / 2) < d) :
    baseOffset (-((m : K) + d)) = -((m : ℤ) + ⌊d + 1 / 2⌋) := by
  unfold baseOffset
  rw [Nat.cast_ofNat]
  split
  next hpos =>
    -- such a time is rounded to that of the base pointer
    obtain rfl : m = 0 := by
      have hm : (m : K) < 1 := by linarith
      exact_mod_cast Nat.lt_one_iff.mp (by exact_mod_cast hm)
    have hneg : d < 0 := by simpa using hpos
    have hleft : ⌊-(((0 : ℕ) : K) + d) + 1 / 2⌋ = 0 := by
      rw [Int.floor_eq_zero_iff]
      constructor
      · push_cast
        linarith
      · push_cast
        linarith
    have hright : ⌊d + 1 / 2⌋ = 0 := by
      rw [Int.floor_eq_zero_iff]
      constructor
      · linarith
      · linarith
    rw [hleft, hright]
    rfl
  next =>
    have hsum : -((m : K) + d) - 1 / 2 = -((d + 1 / 2) + (m : ℤ)) := by
      push_cast
      ring
    rw [hsum, Int.ceil_neg, Int.floor_add_intCast, add_comm]

end LagrangeInterpolator

namespace MultichannelDelayLine

/-- The positions relative to the latest sample at which a call of `interpolate()` reads
samples.  A call that is refused reads nothing. -/
def readOffsets (line : MultichannelDelayLine K) (channelIdx numberOfSamples : ℕ)
    (startDelay endDelay : K) : List ℤ :=
  if channelIdx ≥ line.numberOfChannels then []
  else
    match line.adjustDelay startDelay, line.adjustDelay endDelay with
    | .ok adjustedStartDelay, .ok adjustedEndDelay =>
      line.interpolator.readOffsets numberOfSamples adjustedStartDelay adjustedEndDelay
    | _, _ => []

/-- What the constructor leaves behind. -/
structure Constructed (numberOfChannels samplingFrequency blockLength : ℕ) (maxDelaySeconds : K)
    (interpolator : LagrangeInterpolator) (methodDelayPolicy : MethodDelayPolicy)
    (line : MultichannelDelayLine K) : Prop where
  blockLength_eq : line.blockLength = blockLength
  samplingFrequency_eq : line.samplingFrequency = samplingFrequency
  maxDelaySamples_eq : line.maxDelaySamples = ⌈maxDelaySeconds * (samplingFrequency : K)⌉
  methodDelayPolicy_eq : line.methodDelayPolicy = methodDelayPolicy
  interpolator_eq : line.interpolator = interpolator
  numberOfChannels_eq : line.numberOfChannels = numberOfChannels
  length_eq : line.ringbuffer.length =
    ⌈maxDelaySeconds * (samplingFrequency : K)⌉.toNat + blockLength

theorem constructed_of_create {numberOfChannels samplingFrequency blockLength alignment : ℕ}
    {hblock : 0 < blockLength} {maxDelaySeconds : K} {interpolationMethod : String}
    {methodDelayPolicy : MethodDelayPolicy} {line : MultichannelDelayLine K}
    (h : create numberOfChannels samplingFrequency blockLength hblock maxDelaySeconds
      interpolationMethod methodDelayPolicy alignment = .ok line) :
    Constructed numberOfChannels samplingFrequency blockLength maxDelaySeconds line.interpolator
      methodDelayPolicy line := by
  unfold create at h
  dsimp only at h
  split at h
  · cases h
  · obtain rfl := Except.ok.inj h
    exact ⟨rfl, rfl, rfl, rfl, rfl, rfl, rfl⟩

theorem exists_create (numberOfChannels samplingFrequency : ℕ) {blockLength : ℕ}
    (hblock : 0 < blockLength) (maxDelaySeconds : K) {interpolationMethod : String}
    (methodDelayPolicy : MethodDelayPolicy) (alignment : ℕ) {interpolator : LagrangeInterpolator}
    (h : FractionalDelayFactory.create interpolationMethod blockLength = some interpolator) :
    ∃ line, create numberOfChannels samplingFrequency blockLength hblock maxDelaySeconds
        interpolationMethod methodDelayPolicy alignment = .ok line ∧
      line.interpolator = interpolator := by
  unfold create
  dsimp only
  split
  next hnone => exact absurd (hnone.symm.trans h) (by simp)
  next found hfound =>
    obtain rfl := Option.some.inj (hfound.symm.trans h)
    exact ⟨_, rfl, rfl⟩

/-- The delay lines that come from a delay line by writing blocks. -/
inductive Reaches (line₀ : MultichannelDelayLine K) : MultichannelDelayLine K → Prop
  | refl : Reaches line₀ line₀
  | write {line line' : MultichannelDelayLine K} {input : ℕ → ℕ → K} {numberOfChannels : ℕ}
      (h : Reaches line₀ line) (hwrite : line.write input numberOfChannels = .ok line') :
      Reaches line₀ line'

/-- All samples that are read are among the latest ones that the ring buffer holds. -/
def StaysInside (line : MultichannelDelayLine K) : Prop :=
  ∀ (channelIdx numberOfSamples : ℕ) (startDelay endDelay : K),
    ∀ offset ∈ line.readOffsets channelIdx numberOfSamples startDelay endDelay,
      -(line.ringbuffer.length : ℤ) < offset ∧ offset ≤ 0

/-- Two delay lines that read the same samples from ring buffers of the same length. -/
structure ReadsAlike (line line' : MultichannelDelayLine K) : Prop where
  alike : Alike line line'
  length : line'.ringbuffer.length = line.ringbuffer.length

theorem ReadsAlike.staysInside_congr {line line' : MultichannelDelayLine K}
    (h : ReadsAlike line line') : line'.StaysInside ↔ line.StaysInside := by
  unfold StaysInside readOffsets adjustDelay methodDelay
  rw [h.alike.numberOfChannels, h.alike.interpolator, h.alike.samplingFrequency,
    h.alike.maxDelaySamples, h.alike.methodDelayPolicy, h.length]

omit [Field K] [LinearOrder K] [FloorRing K] in
theorem readsAlike_of_write {line line' : MultichannelDelayLine K} {input : ℕ → ℕ → K}
    {numberOfChannels : ℕ} (h : line.write input numberOfChannels = .ok line') :
    ReadsAlike line line' := by
  unfold write at h
  split at h
  · cases h
  split at h
  · cases h
  next ringbuffer hring =>
    obtain rfl := Except.ok.inj h
    obtain ⟨-, rfl⟩ := CircularBuffer.eq_of_write_ok hring
    exact ⟨⟨rfl, rfl, rfl, rfl, rfl, rfl⟩, rfl⟩

omit [Field K] [LinearOrder K] [FloorRing K] in
/-- Writing changes neither the settings nor the length of the ring buffer. -/
theorem Reaches.readsAlike {line₀ line : MultichannelDelayLine K} (h : Reaches line₀ line) :
    ReadsAlike line₀ line := by
  induction h with
  | refl => exact ⟨⟨rfl, rfl, rfl, rfl, rfl, rfl⟩, rfl⟩
  | write _ hwrite ih =>
    have hlast := readsAlike_of_write hwrite
    exact ⟨⟨hlast.alike.blockLength.trans ih.alike.blockLength,
      hlast.alike.samplingFrequency.trans ih.alike.samplingFrequency,
      hlast.alike.maxDelaySamples.trans ih.alike.maxDelaySamples,
      hlast.alike.methodDelayPolicy.trans ih.alike.methodDelayPolicy,
      hlast.alike.interpolator.trans ih.alike.interpolator,
      hlast.alike.numberOfChannels.trans ih.alike.numberOfChannels⟩,
      hlast.length.trans ih.length⟩

/-! ### The delays of a call -/

variable [IsStrictOrderedRing K]

omit [FloorRing K] in
theorem methodDelay_nonneg (line : MultichannelDelayLine K) : 0 ≤ line.methodDelay := by
  unfold methodDelay LagrangeInterpolator.methodDelay
  positivity

/-- The bounds of what the interpolator gets, for a delay that is not refused. -/
theorem adjustDelay_mem {line : MultichannelDelayLine K} {delay adjusted : K}
    (h : line.adjustDelay delay = .ok adjusted) :
    -(1 / 2) < adjusted ∧ (0 ≤ line.maxDelaySamples → adjusted ≤ line.maxDelaySamples) := by
  have hmethod := line.methodDelay_nonneg
  unfold adjustDelay at h
  by_cases hmax : delay * line.samplingFrequency > line.maxDelaySamples
  · rw [if_pos hmax] at h
    cases h
  rw [if_neg hmax] at h
  rw [gt_iff_lt, not_lt] at hmax
  cases hpolicy : line.methodDelayPolicy with
  | Add =>
    simp only [hpolicy] at h
    split at h
    · cases h
    next hadd =>
      obtain rfl := Except.ok.inj h
      -- a delay that is a little less than zero is accepted
      have hepsilon : epsilon K < 1 / 2 := by
        unfold epsilon
        norm_num
      exact ⟨by linarith, fun _ => hmax⟩
  | Limit =>
    simp only [hpolicy] at h
    obtain rfl := Except.ok.inj h
    refine ⟨lt_of_lt_of_le (by norm_num) (le_max_right _ _), fun hzero => ?_⟩
    exact max_le (by linarith) hzero
  | Reject =>
    simp only [hpolicy] at h
    split at h
    · cases h
    next hreject =>
      obtain rfl := Except.ok.inj h
      exact ⟨by linarith, fun _ => by linarith⟩

omit [FloorRing K] in
/-- For the longest delay, the interpolator gets all of it but the delay of the method. -/
theorem exists_adjustDelay {line : MultichannelDelayLine K} {delay : K}
    (hdelay : delay * line.samplingFrequency = line.maxDelaySamples)
    (hzero : 0 ≤ line.maxDelaySamples)
    (hreject : line.methodDelayPolicy = .Reject → line.methodDelay ≤ line.maxDelaySamples) :
    ∃ adjusted, line.adjustDelay delay = .ok adjusted ∧
      line.maxDelaySamples - line.methodDelay ≤ adjusted := by
  have hmethod := line.methodDelay_nonneg
  have hepsilon : 0 < epsilon K := epsilon_pos
  unfold adjustDelay
  simp only [hdelay, gt_iff_lt, lt_irrefl, if_false]
  cases hpolicy : line.methodDelayPolicy with
  | Add =>
    have hnot : ¬line.maxDelaySamples < -epsilon K := by linarith
    exact ⟨line.maxDelaySamples, by simp only [if_neg hnot], by linarith⟩
  | Limit => exact ⟨_, rfl, le_max_left _ _⟩
  | Reject => exact ⟨_, by simp only [if_neg (not_lt.mpr (hreject hpolicy))], le_refl _⟩

/-! ### The lookback -/

omit [FloorRing K] in
/-- The delays within a block are between those of its ends. -/
theorem between_mem_fraction (start stop : K) {sampleIdx numberOfSamples : ℕ}
    (h : sampleIdx < numberOfSamples) :
    min start stop ≤ between start stop (((sampleIdx + 1 : ℕ) : K) / numberOfSamples) ∧
      between start stop (((sampleIdx + 1 : ℕ) : K) / numberOfSamples) ≤ max start stop := by
  have hpos : (0 : K) < numberOfSamples := Nat.cast_pos.mpr (by omega)
  have hle : ((sampleIdx + 1 : ℕ) : K) ≤ numberOfSamples := by exact_mod_cast h
  exact between_mem ⟨min_le_left start stop, le_max_left start stop⟩
    ⟨min_le_right start stop, le_max_right start stop⟩
    ⟨by positivity, (div_le_one hpos).mpr hle⟩

/-- Sample `sampleIdx` of a call is computed from samples between these ages. -/
theorem mem_readOffsets {line : MultichannelDelayLine K} {channelIdx numberOfSamples : ℕ}
    {startDelay endDelay : K} {offset : ℤ}
    (h : offset ∈ line.readOffsets channelIdx numberOfSamples startDelay endDelay) :
    channelIdx < line.numberOfChannels ∧ numberOfSamples ≤ line.blockLength ∧
      ∃ start stop, line.adjustDelay startDelay = .ok start ∧
        line.adjustDelay endDelay = .ok stop ∧
        ∃ sampleIdx < numberOfSamples, ∃ idx ≤ line.interpolator.order,
          offset = -((numberOfSamples - 1 - sampleIdx + line.interpolator.order : ℕ) +
            ⌊between start stop (((sampleIdx + 1 : ℕ) : K) / numberOfSamples) + 1 / 2⌋) + idx := by
  unfold readOffsets at h
  split at h
  · cases h
  next hchannel =>
    split at h
    next start stop hstart hstop =>
      have hnum : numberOfSamples ≤ line.interpolator.maxNumSamples := by
        by_contra hnum
        rw [LagrangeInterpolator.readOffsets, if_pos (not_le.mp hnum)] at h
        cases h
      obtain ⟨sampleIdx, hsample, idx, hidx, rfl⟩ :=
        (LagrangeInterpolator.mem_readOffsets hnum).mp h
      refine ⟨not_le.mp hchannel, line.maxNumSamples_eq ▸ hnum, start, stop, hstart, hstop,
        sampleIdx, hsample, idx, hidx, ?_⟩
      have hmem := between_mem_fraction start stop hsample
      have hlower : -(1 / 2) < min start stop :=
        lt_min (adjustDelay_mem hstart).1 (adjustDelay_mem hstop).1
      rw [LagrangeInterpolator.baseOffset_neg_add _ (lt_of_lt_of_le hlower hmem.1)]
    · cases h

/-- Nothing is read from after the latest sample. -/
theorem readOffsets_nonpos {line : MultichannelDelayLine K} {channelIdx numberOfSamples : ℕ}
    {startDelay endDelay : K} {offset : ℤ}
    (h : offset ∈ line.readOffsets channelIdx numberOfSamples startDelay endDelay) :
    offset ≤ 0 := by
  obtain ⟨-, -, start, stop, hstart, hstop, sampleIdx, hsample, idx, hidx, rfl⟩ :=
    mem_readOffsets h
  have hlower := (between_mem_fraction start stop hsample).1
  set delay := between start stop (((sampleIdx + 1 : ℕ) : K) / numberOfSamples)
  have hfloor : 0 ≤ ⌊delay + 1 / 2⌋ := by
    have hmin := lt_min (adjustDelay_mem hstart).1 (adjustDelay_mem hstop).1
    exact Int.floor_nonneg.mpr (by linarith)
  push_cast
  omega

/-- A call goes back at most by the block, the order and the longest delay. -/
theorem lookback_lt {line : MultichannelDelayLine K} {channelIdx numberOfSamples : ℕ}
    {startDelay endDelay : K} {longest : ℕ}
    (hstart : ∀ adjusted, line.adjustDelay startDelay = .ok adjusted → adjusted ≤ longest)
    (hend : ∀ adjusted, line.adjustDelay endDelay = .ok adjusted → adjusted ≤ longest)
    {offset : ℤ} (h : offset ∈ line.readOffsets channelIdx numberOfSamples startDelay endDelay) :
    -((numberOfSamples + line.interpolator.order + longest : ℕ) : ℤ) < offset := by
  obtain ⟨-, -, start, stop, hstart', hstop', sampleIdx, hsample, idx, hidx, rfl⟩ :=
    mem_readOffsets h
  have hupper := (between_mem_fraction start stop hsample).2
  have hmaximum := max_le (hstart _ hstart') (hend _ hstop')
  set delay := between start stop (((sampleIdx + 1 : ℕ) : K) / numberOfSamples)
  have hfloor : ⌊delay + 1 / 2⌋ < (longest : ℤ) + 1 := by
    rw [Int.floor_lt]
    push_cast
    linarith
  push_cast
  omega

/-- With one sample for each result, a call goes back at most as far as the maximum delay and
one block. -/
theorem staysInside_of_order_zero {line : MultichannelDelayLine K} {maxDelay : ℕ}
    (hmax : line.maxDelaySamples = maxDelay)
    (hlength : line.ringbuffer.length = maxDelay + line.blockLength)
    (horder : line.interpolator.order = 0) : line.StaysInside := by
  intro channelIdx numberOfSamples startDelay endDelay offset h
  refine ⟨?_, readOffsets_nonpos h⟩
  have hupper : ∀ delay adjusted : K, line.adjustDelay delay = .ok adjusted →
      adjusted ≤ maxDelay := by
    intro delay adjusted hadjusted
    rw [← hmax]
    exact (adjustDelay_mem hadjusted).2 (hmax ▸ Nat.cast_nonneg maxDelay)
  have hlookback := lookback_lt (hupper startDelay) (hupper endDelay) h
  have hnum := (mem_readOffsets h).2.1
  omega

/-- With more samples, a block with the longest delay goes back too far. -/
theorem not_staysInside_of_order_pos {line : MultichannelDelayLine K} {maxDelay : ℕ}
    (hmax : line.maxDelaySamples = maxDelay)
    (hlength : line.ringbuffer.length = maxDelay + line.blockLength)
    (hblock : 0 < line.blockLength) (horder : 0 < line.interpolator.order)
    (hchannels : 0 < line.numberOfChannels)
    (hfrequency : line.samplingFrequency = 0 → maxDelay = 0)
    (hreject : line.methodDelayPolicy = .Reject → line.methodDelay ≤ line.maxDelaySamples) :
    ¬line.StaysInside := by
  have hdelay : (maxDelay : K) / line.samplingFrequency * line.samplingFrequency =
      line.maxDelaySamples := by
    rw [hmax]
    by_cases hzero : line.samplingFrequency = 0
    · simp [hzero, hfrequency hzero]
    · exact div_mul_cancel₀ _ hzero
  obtain ⟨adjusted, hadjusted, hlower⟩ :=
    exists_adjustDelay hdelay (hmax ▸ Nat.cast_nonneg maxDelay) hreject
  -- the oldest sample for the first result of a block
  have hread : -((line.blockLength - 1 - 0 + line.interpolator.order : ℕ) +
      ⌊adjusted + 1 / 2⌋) + ((0 : ℕ) : ℤ) ∈ line.readOffsets 0 line.blockLength
        ((maxDelay : K) / line.samplingFrequency) ((maxDelay : K) / line.samplingFrequency) := by
    unfold readOffsets
    rw [if_neg (not_le.mpr hchannels)]
    simp only [hadjusted]
    rw [LagrangeInterpolator.mem_readOffsets line.maxNumSamples_eq.ge]
    refine ⟨0, hblock, 0, Nat.zero_le _, ?_⟩
    rw [between_self,
      LagrangeInterpolator.baseOffset_neg_add _ (adjustDelay_mem hadjusted).1]
  intro h
  have hinside := (h _ _ _ _ _ hread).1
  have hfloor : (maxDelay : ℤ) + 1 - line.interpolator.order ≤ ⌊adjusted + 1 / 2⌋ := by
    rw [Int.le_floor]
    have hone : (1 : K) ≤ line.interpolator.order := by exact_mod_cast horder
    unfold methodDelay LagrangeInterpolator.methodDelay at hlower
    rw [hmax] at hlower
    push_cast
    linarith
  rw [hlength] at hinside
  push_cast at hinside
  omega

end MultichannelDelayLine

end Visr
