import Visr.Librbbl.DelayLineReads
import Visr.Librbbl.LagrangeCoefficients

/-!
# Delayed polynomials

A delay line that has recorded a polynomial gives the values of this polynomial at the
delayed times, whether or not these are between samples.

## Main results

* `MultichannelDelayLine.Records.holds` — the ring buffer holds the latest samples.
* `MultichannelDelayLine.interpolate_polynomial` — the delay line is exact on polynomials.
-/

namespace Visr

open Polynomial

variable {K : Type} [Field K]

theorem between_add (a b c t : K) : between (a + c) (b + c) t = between a b t + c := by
  unfold between
  ring

namespace MultichannelDelayLine

variable [LinearOrder K]

/-- The delay of the result against the input, in samples. -/
def outputDelay (line : MultichannelDelayLine K) (delay : K) : K :=
  let halfOrder : K := (line.interpolator.order : K) / (2 : ℕ)
  match line.methodDelayPolicy with
  | .Add => delay * line.samplingFrequency + halfOrder
  | .Limit => max (delay * line.samplingFrequency) halfOrder
  | .Reject => delay * line.samplingFrequency

/-- The delay line after `time` samples of a signal have been written, block by block. -/
inductive Records (line₀ : MultichannelDelayLine K) (signal : ℕ → ℕ → K) :
    ℕ → MultichannelDelayLine K → Prop
  | start : Records line₀ signal 0 line₀
  | write {time numberOfChannels : ℕ} {line line' : MultichannelDelayLine K} {input : ℕ → ℕ → K}
      (h : Records line₀ signal time line)
      (hinput : ∀ ch k, ch < line.numberOfChannels → k < line.blockLength →
        input ch k = signal ch (time + k))
      (hwrite : line.write input numberOfChannels = .ok line') :
      Records line₀ signal (time + line.blockLength) line'

/-! ### The history -/

omit [Field K] [LinearOrder K] in
theorem Records.reaches {line₀ line : MultichannelDelayLine K} {signal : ℕ → ℕ → K} {time : ℕ}
    (h : Records line₀ signal time line) : Reaches line₀ line := by
  induction h with
  | start => exact .refl
  | write _ _ hwrite ih => exact .write ih hwrite

omit [LinearOrder K] in
theorem Records.holds {line₀ line : MultichannelDelayLine K} {signal : ℕ → ℕ → K} {time : ℕ}
    (h : Records line₀ signal time line) (hnew : line₀.ringbuffer.Holds signal 0) :
    line.ringbuffer.Holds signal time := by
  induction h with
  | start => exact hnew
  | @write time numberOfChannels line line' input _ hinput hwrite ih =>
    unfold MultichannelDelayLine.write at hwrite
    split at hwrite
    · cases hwrite
    split at hwrite
    · cases hwrite
    next ringbuffer hring =>
      obtain rfl := Except.ok.inj hwrite
      obtain ⟨hle, rfl⟩ := CircularBuffer.eq_of_write_ok hring
      apply ih.store_advance (Nat.le_trans hle line.ringbuffer.length_le)
      intro ch k hch hk
      exact hinput ch k hch hk

theorem holds_of_create [FloorRing K] {numberOfChannels samplingFrequency blockLength alignment : ℕ}
    {hblock : 0 < blockLength} {maxDelaySeconds : K} {interpolationMethod : String}
    {methodDelayPolicy : MethodDelayPolicy} {line : MultichannelDelayLine K}
    (h : create numberOfChannels samplingFrequency blockLength hblock maxDelaySeconds
      interpolationMethod methodDelayPolicy alignment = .ok line) (signal : ℕ → ℕ → K) :
    line.ringbuffer.Holds signal 0 := by
  unfold create at h
  dsimp only at h
  split at h
  · cases h
  · obtain rfl := Except.ok.inj h
    exact CircularBuffer.holds_create _ _ _ (Nat.lt_of_lt_of_le hblock (Nat.le_add_left _ _)) signal

omit [LinearOrder K] in
/-- The samples behind the base pointer, as far as they are recorded. -/
theorem basePointer_eq {line : MultichannelDelayLine K} {signal : ℕ → ℕ → K} {time channelIdx : ℕ}
    (h : line.ringbuffer.Holds signal time) (hchannel : channelIdx < line.numberOfChannels)
    {offset : ℤ} (hlower : -(min time line.ringbuffer.allocatedLength : ℕ) < offset)
    (hupper : offset ≤ 0) :
    line.basePointer channelIdx offset = signal channelIdx (time - (1 - offset).toNat) := by
  have hhead := line.ringbuffer.head_lt
  have hlatest := h.latest channelIdx (1 - offset).toNat hchannel (by omega) (by omega)
  rw [Signal.past_of_le _ (by omega)] at hlatest
  rw [← hlatest]
  unfold basePointer
  dsimp only
  congr 1
  omega

omit [LinearOrder K] in
/-- For a polynomial signal, these samples are values of a polynomial in the offset. -/
theorem basePointer_eq_eval {line : MultichannelDelayLine K} {signal : ℕ → ℕ → K}
    {time channelIdx : ℕ} (h : line.ringbuffer.Holds signal time)
    (hchannel : channelIdx < line.numberOfChannels) {p : K[X]}
    (hsignal : ∀ t < time, signal channelIdx t = p.eval (t : K)) {offset : ℤ}
    (hlower : -(min time line.ringbuffer.allocatedLength : ℕ) < offset) (hupper : offset ≤ 0) :
    line.basePointer channelIdx offset =
      (p.comp (X + C ((time : K) - 1))).eval (offset : K) := by
  rw [basePointer_eq h hchannel hlower hupper, hsignal _ (by omega), eval_comp]
  congr 1
  have hcast : ((time - (1 - offset).toNat : ℕ) : ℤ) = offset + (time - 1) := by omega
  simp only [eval_add, eval_X, eval_C]
  exact_mod_cast congrArg (Int.cast (R := K)) hcast

/-! ### Exactness -/

variable [FloorRing K] [IsStrictOrderedRing K]

omit [FloorRing K] in
/-- What the policies mean for the result: the interpolator adds half its order. -/
theorem outputDelay_eq {line : MultichannelDelayLine K} {delay adjusted : K}
    (h : line.adjustDelay delay = .ok adjusted) :
    line.outputDelay delay = adjusted + (line.interpolator.order : K) / 2 := by
  have hmethod : line.methodDelay = (line.interpolator.order : K) / 2 := by
    unfold methodDelay LagrangeInterpolator.methodDelay
    ring
  unfold adjustDelay at h
  by_cases hmax : delay * line.samplingFrequency > line.maxDelaySamples
  · rw [if_pos hmax] at h
    cases h
  rw [if_neg hmax] at h
  unfold outputDelay
  rw [Nat.cast_ofNat]
  -- the policies differ in whether this half has been subtracted before
  cases hpolicy : line.methodDelayPolicy with
  | Add =>
    simp only [hpolicy] at h ⊢
    split at h
    · cases h
    · rw [Except.ok.inj h]
  | Limit =>
    simp only [hpolicy] at h ⊢
    obtain rfl := Except.ok.inj h
    rw [← hmethod, ← max_add_add_right, zero_add, sub_add_cancel]
  | Reject =>
    simp only [hpolicy] at h ⊢
    split at h
    · cases h
    · rw [← Except.ok.inj h, hmethod, sub_add_cancel]

omit [LinearOrder K] [FloorRing K] [IsStrictOrderedRing K] in
/-- The position of a sample, relative to the end of the block. -/
theorem position_eq {idx numberOfSamples : ℕ} (h : idx < numberOfSamples) (order : ℕ) (d : K) :
    ((idx + 1 : ℕ) : K) - ((numberOfSamples + order : ℕ) : K) - d =
      -(((numberOfSamples - 1 - idx + order : ℕ) : K) + d) := by
  obtain ⟨rest, rfl⟩ := Nat.exists_eq_add_of_lt h
  have hrest : idx + rest + 1 - 1 - idx + order = rest + order := by omega
  rw [hrest]
  push_cast
  ring

/-- **Exactness on polynomials.** -/
theorem interpolate_polynomial
    {numberOfChannels samplingFrequency blockLength alignment : ℕ} {hblock : 0 < blockLength}
    {maxDelaySeconds : K} {interpolationMethod : String} {methodDelayPolicy : MethodDelayPolicy}
    {line₀ line : MultichannelDelayLine K}
    (hcreate : create numberOfChannels samplingFrequency blockLength hblock maxDelaySeconds
      interpolationMethod methodDelayPolicy alignment = .ok line₀)
    {signal : ℕ → ℕ → K} {time : ℕ} (hrecords : Records line₀ signal time line)
    {channelIdx : ℕ} (hchannel : channelIdx < numberOfChannels) {p : K[X]}
    (hp : p.natDegree ≤ line.interpolator.order)
    (hsignal : ∀ t < time, signal channelIdx t = p.eval (t : K))
    {numberOfSamples : ℕ} (hnum : numberOfSamples ≤ blockLength)
    {startDelay endDelay adjustedStartDelay adjustedEndDelay : K}
    (hstart : line.adjustDelay startDelay = .ok adjustedStartDelay)
    (hend : line.adjustDelay endDelay = .ok adjustedEndDelay)
    (hhistory : ∀ offset ∈ line.readOffsets channelIdx numberOfSamples startDelay endDelay,
      -(min time line.ringbuffer.allocatedLength : ℕ) < offset)
    (startGain endGain : K) :
    ∃ result, line.interpolate channelIdx numberOfSamples startDelay endDelay startGain endGain =
        .ok result ∧
      ∀ idx < numberOfSamples,
        let fraction : K := ((idx + 1 : ℕ) : K) / numberOfSamples
        let sampleTime : K := (time : K) - numberOfSamples + idx
        let delay := between (line.outputDelay startDelay) (line.outputDelay endDelay) fraction
        result idx = between startGain endGain fraction * p.eval (sampleTime - delay) := by
  have hline := constructed_of_create hcreate
  have halike := hrecords.reaches.readsAlike.alike
  have hholds := hrecords.holds (holds_of_create hcreate signal)
  have hchannel : channelIdx < line.numberOfChannels := by
    rw [halike.numberOfChannels, hline.numberOfChannels_eq]
    exact hchannel
  have hnum : numberOfSamples ≤ line.interpolator.maxNumSamples := by
    rw [line.maxNumSamples_eq, halike.blockLength, hline.blockLength_eq]
    exact hnum
  obtain ⟨result, hresult, hsample⟩ :=
    LagrangeInterpolator.interpolate_eq hnum (line.basePointer channelIdx) adjustedStartDelay
      adjustedEndDelay startGain endGain
  refine ⟨result, ?_, fun idx hidx => ?_⟩
  · unfold interpolate
    rw [if_neg (Nat.not_le.mpr hchannel), hstart, hend]
    exact hresult
  intro fraction sampleTime delay
  have hdegree : (p.comp (X + C ((time : K) - 1))).natDegree ≤ line.interpolator.order := by
    rw [natDegree_comp, natDegree_X_add_C, mul_one]
    exact hp
  have hposition := position_eq hidx line.interpolator.order
    (between adjustedStartDelay adjustedEndDelay fraction)
  rw [hsample idx hidx, hposition]
  rw [LagrangeInterpolator.sample_eq_eval hdegree, eval_comp]
  · -- the same time, from the end of the block and from the start of the signal
    congr 2
    simp only [eval_add, eval_X, eval_C, delay, sampleTime]
    rw [outputDelay_eq hstart, outputDelay_eq hend, between_add, ← hposition]
    unfold LagrangeInterpolator.methodDelay
    push_cast
    ring
  · -- the samples it is computed from are recorded
    intro i hi
    have hmem : LagrangeInterpolator.baseOffset (-(((numberOfSamples - 1 - idx +
        line.interpolator.order : ℕ) : K) + between adjustedStartDelay adjustedEndDelay fraction)) +
          (i : ℕ) ∈ line.readOffsets channelIdx numberOfSamples startDelay endDelay := by
      unfold readOffsets
      rw [if_neg (Nat.not_le.mpr hchannel)]
      simp only [hstart, hend]
      exact (LagrangeInterpolator.mem_readOffsets hnum).mpr ⟨idx, hidx, i, hi, rfl⟩
    rw [basePointer_eq_eval hholds hchannel hsignal (hhistory _ hmem) (readOffsets_nonpos hmem)]
    push_cast
    rfl

/-- A ramp in a delay line with linear interpolation, with a delay that changes from none to one
sample. -/
theorem interpolate_ramp : ∃ (line₀ line : MultichannelDelayLine ℚ) (result : ℕ → ℚ),
    create 1 1 4 (by decide) 2 "lagrangeOrder1" .Add 0 = .ok line₀ ∧
      Records line₀ (fun _ t => t) 8 line ∧ line.interpolate 0 4 0 1 1 1 = .ok result ∧
      ∀ idx < 4, result idx = 4 + idx - (1 / 2 + (idx + 1) / 4) := by
  obtain ⟨line₀, hcreate, hinterpolator⟩ := exists_create (K := ℚ) 1 1 (Nat.succ_pos 3) 2 .Add 0
    (rfl : FractionalDelayFactory.create "lagrangeOrder1" 4 = some ⟨1, 4⟩)
  have hline := constructed_of_create hcreate
  obtain ⟨line₁, hwrite₁, halike₁⟩ := line₀.write_ok fun _ k => (k : ℚ)
  obtain ⟨line₂, hwrite₂, halike₂⟩ := line₁.write_ok fun _ k => ((4 + k : ℕ) : ℚ)
  -- the samples of the ramp in two blocks
  have hfirst : Records line₀ (fun _ t => (t : ℚ)) (0 + line₀.blockLength) line₁ :=
    .write .start (fun _ k _ _ => by rw [Nat.zero_add]) hwrite₁
  have hboth : Records line₀ (fun _ t => (t : ℚ)) (0 + line₀.blockLength + line₁.blockLength) line₂ :=
    .write hfirst (fun _ k _ _ => by rw [hline.blockLength_eq]) hwrite₂
  rw [halike₁.blockLength, hline.blockLength_eq] at hboth
  obtain ⟨halike, hlength⟩ := hboth.reaches.readsAlike
  have horder : line₂.interpolator.order = 1 := by
    rw [halike.interpolator, hinterpolator]
  have hadjust : ∀ delay : ℚ, 0 ≤ delay → delay ≤ 1 → line₂.adjustDelay delay = .ok delay := by
    intro delay hzero hone
    have hadmissible : line₂.Admissible delay ∧ ¬line₂.Limited delay := by
      unfold Admissible Limited
      rw [halike.samplingFrequency, halike.maxDelaySamples, halike.methodDelayPolicy,
        hline.samplingFrequency_eq, hline.maxDelaySamples_eq, hline.methodDelayPolicy_eq]
      refine ⟨⟨?_, by simpa using hzero⟩, by simp⟩
      norm_num
      linarith
    rw [adjustDelay_eq hadmissible, effectiveDelay, halike.methodDelayPolicy,
      halike.samplingFrequency, hline.methodDelayPolicy_eq, hline.samplingFrequency_eq]
    simp
  have hstart := hadjust 0 (by norm_num) (by norm_num)
  have hend := hadjust 1 (by norm_num) (by norm_num)
  -- the samples that are read are at most five before the end
  have hhistory : ∀ offset ∈ line₂.readOffsets 0 4 0 1,
      -(min 8 line₂.ringbuffer.allocatedLength : ℕ) < offset := by
    intro offset hmem
    have hlookback : -((4 + line₂.interpolator.order + 1 : ℕ) : ℤ) < offset :=
      lookback_lt (by simp [hstart]) (by simp [hend]) hmem
    have hallocated := line₂.ringbuffer.length_le
    rw [horder] at hlookback
    rw [hlength, hline.length_eq] at hallocated
    norm_num at hallocated
    omega
  have hdegree : (X : ℚ[X]).natDegree ≤ line₂.interpolator.order := by rw [natDegree_X, horder]
  obtain ⟨result, hresult, hvalues⟩ := interpolate_polynomial hcreate hboth Nat.one_pos hdegree
    (fun t _ => by simp) (Nat.le_refl _) hstart hend hhistory 1 1
  refine ⟨line₀, line₂, result, hcreate, hboth, hresult, fun idx hidx => ?_⟩
  have hvalue := hvalues idx hidx
  unfold outputDelay at hvalue
  simp only [between_self, one_mul, eval_X, halike.methodDelayPolicy, halike.samplingFrequency,
    hline.methodDelayPolicy_eq, hline.samplingFrequency_eq, horder] at hvalue
  rw [hvalue]
  unfold between
  push_cast
  ring

end MultichannelDelayLine

end Visr
