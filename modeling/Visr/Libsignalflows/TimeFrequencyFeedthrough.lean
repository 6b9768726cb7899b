import Visr.Librbbl.KissFftWrapper
import Visr.Librcl.TimeFrequencyTransform

/-!
# A signal flow through the frequency domain

The short-time Fourier transform of the input signals is connected to the inverse transform.  The
default window is a Hann window whose shifts add up to a constant.

## Main results

* `constantOverlap_unityHannWindow` — the window has the property for which it was chosen.
* `TimeFrequencyFeedthrough.Inv.process` — one period.
* `TimeFrequencyFeedthrough.create_delays` — **the signal flow is a delay** with a gain.
-/

namespace Visr

open OverlapAdd
open Signal (past)

/-! ### The window -/

noncomputable def unityHannWindow (length idx : ℕ) : ℝ :=
  0.5 - 0.5 * Real.cos ((2 : ℕ) * Real.pi * idx / length)

/-- The cosines at regular distances around the circle. -/
theorem sum_cos {count : ℕ} (hcount : 1 < count) (θ : ℝ) :
    ∑ q ∈ Finset.range count, Real.cos (θ + 2 * Real.pi * q / count) = 0 := by
  have hroot := Complex.isPrimitiveRoot_exp count (by omega)
  have hterm : ∀ q : ℕ, Real.cos (θ + 2 * Real.pi * q / count) =
      (Complex.exp (θ * Complex.I) *
        Complex.exp (2 * Real.pi * Complex.I / count) ^ q).re := by
    intro q
    rw [← Complex.exp_nat_mul, ← Complex.exp_add]
    have hangle : (θ * Complex.I + q * (2 * Real.pi * Complex.I / count) : ℂ) =
        ((θ + 2 * Real.pi * q / count : ℝ) : ℂ) * Complex.I := by
      push_cast
      ring
    rw [hangle, Complex.exp_ofReal_mul_I_re]
  simp only [hterm]
  rw [← Complex.re_sum, ← Finset.mul_sum, hroot.geom_sum_eq_zero hcount, mul_zero,
    Complex.zero_re]

/-- **The shifts of the window add up to a constant.** -/
theorem constantOverlap_unityHannWindow {hop count : ℕ} (hhop : 0 < hop) (hcount : 1 < count) :
    ConstantOverlap hop count (unityHannWindow (count * hop)) (count / 2) := by
  intro r _
  have hangle : ∀ q : ℕ, (2 * Real.pi * ((r + q * hop : ℕ) : ℝ) / ((count * hop : ℕ) : ℝ)) =
      2 * Real.pi * r / (count * hop) + 2 * Real.pi * q / count := by
    intro q
    have hne : (hop : ℝ) ≠ 0 := Nat.cast_ne_zero.mpr hhop.ne'
    have hne' : (count : ℝ) ≠ 0 := Nat.cast_ne_zero.mpr (by omega)
    push_cast
    field_simp
  simp only [unityHannWindow, Nat.cast_ofNat, hangle]
  rw [Finset.sum_sub_distrib, ← Finset.mul_sum, sum_cos hcount, mul_zero, sub_zero,
    Finset.sum_const, Finset.card_range, nsmul_eq_mul]
  ring

/-! ### The signal flow -/

variable {R C : Type} [Field R] [CommRing C] [Algebra R C]

/-- The composite component with its two parts. -/
structure TimeFrequencyFeedthrough (R C : Type) [Field R] [CommRing C] [Algebra R C]
    (dftSize : ℕ) where
  mForwardTransform : TimeFrequencyTransform R C dftSize
  mInverseTransform : TimeFrequencyInverseTransform R C dftSize

namespace TimeFrequencyFeedthrough

open TimeFrequencyTransform (FrameMatrix)

variable {dftSize : ℕ}

/-- The constructor, with the default window and the default normalisations. -/
noncomputable def create (period numberOfChannels windowLength hopSize : ℕ)
    (fftWrapper : FftWrapper ℝ ℂ dftSize) :
    Except Abort (TimeFrequencyFeedthrough ℝ ℂ dftSize) := do
  let mForwardTransform ← TimeFrequencyTransform.create Real.sqrt period numberOfChannels
    (unityHannWindow windowLength) windowLength hopSize fftWrapper .Unitary
  let mInverseTransform ← (TimeFrequencyInverseTransform.create Real.sqrt period numberOfChannels
    hopSize fftWrapper .OneOverN).mapError .exception
  return { mForwardTransform, mInverseTransform }

/-- One period: the parts in the order of the connection, with the frames and the output signals
in the result. -/
def process (f : TimeFrequencyFeedthrough R C dftSize) (input : ℕ → ℕ → R) (mtx : FrameMatrix C)
    (output : AudioChannels R) :
    Except Exception (TimeFrequencyFeedthrough R C dftSize × FrameMatrix C × (ℕ → ℕ → R)) := do
  let forward ← f.mForwardTransform.process input mtx
  let inverse ← f.mInverseTransform.process
    (fun frameIdx channelIdx => forward.2 (frameIdx, channelIdx)) output
  return (⟨forward.1, inverse.1⟩, forward.2, inverse.2)

/-- The signal flow after some periods of the input signals. -/
def run (f : TimeFrequencyFeedthrough R C dftSize) (signal : ℕ → ℕ → R)
    (outputs : ℕ → AudioChannels R) :
    ℕ → Except Exception (TimeFrequencyFeedthrough R C dftSize × FrameMatrix C × (ℕ → ℕ → R))
  | 0 => .ok (f, fun _ _ => 0, fun _ _ => 0)
  | t + 1 => do
    let state ← f.run signal outputs t
    state.1.process
      (fun channelIndex k => signal channelIndex (t * state.1.mForwardTransform.period + k))
      state.2.1 (outputs t)

/-! ### One period -/

/-- The parts of a signal flow have a common configuration. -/
structure Regular (f : TimeFrequencyFeedthrough R C dftSize) : Prop where
  forward : f.mForwardTransform.Regular
  period : f.mInverseTransform.period = f.mForwardTransform.period
  numberOfChannels : f.mInverseTransform.numberOfChannels = f.mForwardTransform.numberOfChannels
  framesPerPeriod : f.mInverseTransform.framesPerPeriod = f.mForwardTransform.framesPerPeriod
  hopSize : f.mInverseTransform.hopSize = f.mForwardTransform.hopSize
  fftWrapper : f.mInverseTransform.fftWrapper = f.mForwardTransform.fftWrapper

/-- All frames of a run. -/
def framesOf (f : TimeFrequencyFeedthrough R C dftSize) (signal : ℕ → ℕ → R) :
    TimeFrequencyParameter C := fun m channelIdx =>
  f.mForwardTransform.fftWrapper.forwardTransform (f.mForwardTransform.frameOf signal m channelIdx)

/-- What is known after `t` periods. -/
structure Inv (f₀ : TimeFrequencyFeedthrough R C dftSize) (signal : ℕ → ℕ → R) (t : ℕ)
    (f : TimeFrequencyFeedthrough R C dftSize) : Prop where
  forward : TimeFrequencyTransform.Inv f₀.mForwardTransform signal t f.mForwardTransform
  inverse : f.mInverseTransform = { f₀.mInverseTransform with
    accumulationBuffer := f.mInverseTransform.accumulationBuffer
    calcBuffer := f.mInverseTransform.calcBuffer }
  holds : f.mInverseTransform.Holds (f₀.framesOf signal)
    (t * f₀.mInverseTransform.framesPerPeriod) f.mInverseTransform.accumulationBuffer
    (List.range f₀.mInverseTransform.numberOfChannels)

/-- The inverse transform depends on the frames of its channels only. -/
theorem processChannels_congr {inMtx inMtx' : TimeFrequencyParameter C} (output : AudioChannels R)
    {channels : List ℕ} (s : TimeFrequencyInverseTransform R C dftSize) (signals : ℕ → ℕ → R)
    (h : ∀ frameIdx < s.framesPerPeriod, ∀ channelIdx ∈ channels,
      inMtx frameIdx channelIdx = inMtx' frameIdx channelIdx) :
    TimeFrequencyInverseTransform.processChannels inMtx output channels s signals =
      TimeFrequencyInverseTransform.processChannels inMtx' output channels s signals := by
  induction channels generalizing s signals with
  | nil => rfl
  | cons channelIdx rest ih =>
    have hframes : (List.range s.framesPerPeriod).map (fun frameIdx => inMtx frameIdx channelIdx) =
        (List.range s.framesPerPeriod).map fun frameIdx => inMtx' frameIdx channelIdx :=
      List.map_congr_left fun frameIdx hframe =>
        h frameIdx (List.mem_range.mp hframe) channelIdx List.mem_cons_self
    simp only [TimeFrequencyInverseTransform.processChannels, hframes]
    congr 1
    funext buffers
    congr 1
    funext signal
    exact ih _ _ fun frameIdx hframe ch hch => h frameIdx hframe ch (List.mem_cons_of_mem _ hch)

/-- **One period.** -/
theorem Inv.process {f₀ f : TimeFrequencyFeedthrough R C dftSize} {signal : ℕ → ℕ → R} {t : ℕ}
    (hreg : f₀.Regular) (h : Inv f₀ signal t f)
    (haligned : ∀ m, f₀.mForwardTransform.AlignedAt m) (mtx : FrameMatrix C)
    (output : AudioChannels R) :
    ∃ f' mtx' signals, f.process (fun channelIndex k =>
        signal channelIndex (t * f.mForwardTransform.period + k)) mtx output =
          .ok (f', mtx', signals) ∧
      Inv f₀ signal (t + 1) f' ∧
      f₀.mInverseTransform.LastFrame (f₀.framesOf signal)
        (t * f₀.mInverseTransform.framesPerPeriod) signals
        (List.range f₀.mInverseTransform.numberOfChannels) := by
  -- the frames of the period
  have hforward := h.forward.process (h.forward.regular hreg.forward) mtx
  obtain ⟨⟨forward, mtx'⟩, hok⟩ := hforward.1.mpr (by
    rw [h.forward.config]
    exact fun frameIdx _ _ => haligned _)
  obtain ⟨hinv, hout⟩ := hforward.2 forward mtx' hok
  rw [h.forward.config] at hout
  -- the output signals
  have hholds := h.holds
  rw [h.inverse] at hholds
  obtain ⟨buffer, calcBuffer, signals, hprocess, hholds', hlast⟩ :=
    TimeFrequencyInverseTransform.process_spec _ (f₀.framesOf signal) _ output hholds
  have hinverse : f.mInverseTransform.process
      (fun frameIdx channelIdx => mtx' (frameIdx, channelIdx)) output =
        .ok ({ f₀.mInverseTransform with
          accumulationBuffer := buffer, calcBuffer := calcBuffer }, signals) := by
    rw [h.inverse]
    refine Eq.trans (processChannels_congr output _ _ fun frameIdx hframe channelIdx hchannel => ?_)
      hprocess
    have hchannel' := List.mem_range.mp hchannel
    dsimp only at hframe hchannel'
    rw [hreg.framesPerPeriod] at hframe ⊢
    rw [hreg.numberOfChannels] at hchannel'
    exact hout frameIdx hframe channelIdx hchannel'
  refine ⟨⟨forward, { f₀.mInverseTransform with
    accumulationBuffer := buffer, calcBuffer := calcBuffer }⟩, mtx', signals, ?_, ⟨hinv, rfl, ?_⟩,
    hlast⟩
  · rw [TimeFrequencyFeedthrough.process, hok]
    show (f.mInverseTransform.process _ output).bind _ = _
    rw [hinverse]
    rfl
  · rw [Nat.succ_mul]
    exact hholds'

/-! ### Runs -/

/-- **A run** does not fail. -/
theorem run_spec {f : TimeFrequencyFeedthrough R C dftSize} {signal : ℕ → ℕ → R}
    (hreg : f.Regular) (h₀ : Inv f signal 0 f) (haligned : ∀ m, f.mForwardTransform.AlignedAt m)
    (outputs : ℕ → AudioChannels R) (t : ℕ) :
    ∃ f' mtx signals, f.run signal outputs t = .ok (f', mtx, signals) ∧ Inv f signal t f' := by
  induction t with
  | zero => exact ⟨f, _, _, rfl, h₀⟩
  | succ t ih =>
    obtain ⟨f', mtx, signals, hrun, hinv⟩ := ih
    obtain ⟨f'', mtx', signals', hprocess, hinv', -⟩ :=
      hinv.process hreg haligned mtx (outputs t)
    refine ⟨f'', mtx', signals', ?_, hinv'⟩
    rw [run, hrun]
    exact hprocess

/-- The output signals of a period. -/
theorem run_succ_spec {f : TimeFrequencyFeedthrough R C dftSize} {signal : ℕ → ℕ → R}
    (hreg : f.Regular) (h₀ : Inv f signal 0 f) (haligned : ∀ m, f.mForwardTransform.AlignedAt m)
    (outputs : ℕ → AudioChannels R) (t : ℕ) :
    ∃ f' mtx signals, f.run signal outputs (t + 1) = .ok (f', mtx, signals) ∧
      f.mInverseTransform.LastFrame (f.framesOf signal)
        (t * f.mInverseTransform.framesPerPeriod) signals
        (List.range f.mInverseTransform.numberOfChannels) := by
  obtain ⟨f', mtx, signals, hrun, hinv⟩ := run_spec hreg h₀ haligned outputs t
  obtain ⟨f'', mtx', signals', hprocess, -, hlast⟩ := hinv.process hreg haligned mtx (outputs t)
  refine ⟨f'', mtx', signals', ?_, hlast⟩
  rw [run, hrun]
  exact hprocess

/-- The frames after both transforms are the windowed frames of the signal. -/
theorem transformed_framesOf {f : TimeFrequencyFeedthrough R C dftSize} (hreg : f.Regular)
    (signal : ℕ → ℕ → R) (channelIdx m : ℕ) {n : ℕ} (hn : n < dftSize) :
    f.mInverseTransform.transformed (f.framesOf signal) channelIdx m n =
      f.mForwardTransform.fftWrapper.inverseScalingFactor * dftSize *
        f.mForwardTransform.fftWrapper.forwardScalingFactor *
        windowedFrame f.mForwardTransform.hopSize f.mForwardTransform.windowLength
          f.mForwardTransform.window (signal channelIdx) m n := by
  rw [TimeFrequencyInverseTransform.transformed, hreg.fftWrapper]
  exact f.mForwardTransform.fftWrapper.inverse_forward _ hn

/-- **The output signals** are the delayed input signals, if the shifts of the window add up to a
constant and there is one frame in each period. -/
theorem run_delays {f : TimeFrequencyFeedthrough R C dftSize} {signal : ℕ → ℕ → R}
    (hreg : f.Regular) (h₀ : Inv f signal 0 f) (haligned : ∀ m, f.mForwardTransform.AlignedAt m)
    (hone : f.mForwardTransform.framesPerPeriod = 1) {count : ℕ} {c : R}
    (hlength : f.mForwardTransform.windowLength = count * f.mForwardTransform.hopSize)
    (hsize : f.mForwardTransform.windowLength ≤ dftSize)
    (hwindow : ConstantOverlap f.mForwardTransform.hopSize count f.mForwardTransform.window c)
    (outputs : ℕ → AudioChannels R) (t : ℕ) :
    ∃ f' mtx signals, f.run signal outputs (t + 1) = .ok (f', mtx, signals) ∧
      ∀ channelIdx < f.mForwardTransform.numberOfChannels, ∀ k < f.mForwardTransform.period,
        signals channelIdx k = f.mInverseTransform.scalingFactor *
          (f.mForwardTransform.fftWrapper.inverseScalingFactor * dftSize *
            f.mForwardTransform.fftWrapper.forwardScalingFactor * c) *
          past (signal channelIdx) (t * f.mForwardTransform.period + k +
            f.mForwardTransform.hopSize) f.mForwardTransform.windowLength := by
  obtain ⟨f', mtx, signals, hrun, hlast⟩ := run_succ_spec hreg h₀ haligned outputs t
  refine ⟨f', mtx, signals, hrun, fun channelIdx hchannel k hk => ?_⟩
  have hframes : f.mInverseTransform.framesPerPeriod = 1 := hreg.framesPerPeriod.trans hone
  have hperiod := hreg.forward.period
  rw [hone, Nat.one_mul] at hperiod
  have hhop := hreg.forward.hopSize
  have hlonger := hreg.forward.windowLength
  have hsignal := hlast (by omega) channelIdx
    (List.mem_range.mpr (by rwa [hreg.numberOfChannels])) k (by rwa [hreg.period]) (by omega)
  rw [hframes, Nat.mul_one, Nat.add_sub_cancel, hreg.hopSize] at hsignal
  have hbefore : t * f.mForwardTransform.hopSize + k < (t + 1) * f.mForwardTransform.hopSize := by
    rw [Nat.succ_mul]
    omega
  rw [hsignal, leading_eq_overlapAdd hhop hbefore,
    overlapAdd_congr fun m n hn => transformed_framesOf hreg signal channelIdx m hn,
    overlapAdd_mul_left, hlength, overlapAdd_windowed hhop hwindow (by omega), ← hlength, hperiod]
  ring

/-! ### Configurations -/

/-- The periods consist of one hop, the window of several ones, and all sizes are aligned.  The
delay line of the transform has to take the padding. -/
structure Suitable (dftSize period windowLength hopSize : ℕ) : Prop where
  one_hop : period = hopSize
  hop_pos : 0 < hopSize
  window : hopSize ∣ windowLength
  overlap : 2 * hopSize ≤ windowLength
  size : windowLength ≤ dftSize
  padding : dftSize ≤ windowLength + hopSize
  aligned : cVectorAlignmentSamples ∣ hopSize
  dftAligned : cVectorAlignmentSamples ∣ dftSize

variable {period windowLength hopSize : ℕ}

/-- The constructor of the first part accepts such sizes. -/
theorem exists_forward (h : Suitable dftSize period windowLength hopSize) (numberOfChannels : ℕ)
    (window : ℕ → ℝ) (fftWrapper : FftWrapper ℝ ℂ dftSize) (normalisation : Normalisation) :
    ∃ s, TimeFrequencyTransform.create Real.sqrt period numberOfChannels window windowLength hopSize
      fftWrapper normalisation = .ok s := by
  obtain ⟨rfl, hpos, -, hoverlap, -, hpadding, -, -⟩ := h
  have hsizes : ¬ (period = 0 ∨ period % period ≠ 0) := by
    rw [Nat.mod_self]
    omega
  have hlength : windowLength + period / period * period - period = windowLength := by
    rw [Nat.div_self hpos]
    omega
  unfold TimeFrequencyTransform.create TimeFrequencyTransform.inputBufferSize
  rw [if_neg hpos.ne', if_neg hsizes]
  dsimp only [bind, Except.bind]
  simp only [hlength]
  rw [dif_pos (by omega)]
  obtain ⟨b, hb⟩ : ∃ b, TimeFrequencyTransform.padInput dftSize period numberOfChannels
      (CircularBuffer.create (α := ℝ) numberOfChannels windowLength cVectorAlignmentSamples
        (by omega)) = .ok b := by
    unfold TimeFrequencyTransform.padInput
    split
    · exact ⟨_, CircularBuffer.write_of_le (by show dftSize - period ≤ windowLength; omega) _⟩
    · exact ⟨_, rfl⟩
  rw [hb]
  exact ⟨_, rfl⟩

/-- The constructor of the second part accepts one hop in each period. -/
theorem exists_inverse (h : Suitable dftSize period windowLength hopSize) (numberOfChannels : ℕ)
    (fftWrapper : FftWrapper ℝ ℂ dftSize) (normalisation : Normalisation) :
    ∃ s, TimeFrequencyInverseTransform.create Real.sqrt period numberOfChannels hopSize fftWrapper
      normalisation = .ok s := by
  rw [TimeFrequencyInverseTransform.create, if_neg]
  · exact ⟨_, rfl⟩
  · rw [not_not, h.one_hop, Nat.mod_self]

/-- The gain of the signal flow does not depend on the factors of the FFT wrapper. -/
theorem gain_eq (fftWrapper : FftWrapper ℝ ℂ dftSize) (hhop : 0 < hopSize) (count : ℕ) :
    calculateScalingFactor Real.sqrt .OneOverN fftWrapper.inverseScalingFactor dftSize *
        (fftWrapper.inverseScalingFactor * dftSize * fftWrapper.forwardScalingFactor *
          (desiredScaling Real.sqrt .Unitary dftSize / fftWrapper.forwardScalingFactor *
            (count / 2))) =
      (count * hopSize : ℕ) / (2 * hopSize * Real.sqrt dftSize) := by
  have hsize := fftWrapper.dftSize_ne_zero
  have hforwardScaling := fftWrapper.forward_ne_zero
  have hinverseScaling := fftWrapper.inverse_ne_zero
  have hsqrt : Real.sqrt dftSize ≠ 0 :=
    Real.sqrt_ne_zero'.mpr (lt_of_le_of_ne (Nat.cast_nonneg _) hsize.symm)
  have hhop' : (hopSize : ℝ) ≠ 0 := Nat.cast_ne_zero.mpr hhop.ne'
  simp only [calculateScalingFactor, desiredScaling]
  push_cast
  field_simp

/-- **The signal flow is a delay** with a gain, for all input signals and in all periods. -/
theorem create_delays (h : Suitable dftSize period windowLength hopSize) (numberOfChannels : ℕ)
    (fftWrapper : FftWrapper ℝ ℂ dftSize) :
    ∃ f, create period numberOfChannels windowLength hopSize fftWrapper = .ok f ∧
      ∀ signal outputs t, ∃ f' mtx signals, f.run signal outputs (t + 1) = .ok (f', mtx, signals) ∧
        ∀ channelIdx < numberOfChannels, ∀ k < period,
          signals channelIdx k = windowLength / (2 * hopSize * Real.sqrt dftSize) *
            past (signal channelIdx) (t * period + k + hopSize) windowLength := by
  obtain ⟨forward, hforward⟩ :=
    exists_forward h numberOfChannels (unityHannWindow windowLength) fftWrapper .Unitary
  obtain ⟨inverse, hinverse⟩ := exists_inverse h numberOfChannels fftWrapper .OneOverN
  refine ⟨⟨forward, inverse⟩, by rw [create, hforward, hinverse]; rfl, fun signal outputs t => ?_⟩
  obtain ⟨-, hparts⟩ := TimeFrequencyInverseTransform.create_eq_ok hinverse
  have hhop := h.hop_pos
  have hoverlap := h.overlap
  obtain ⟨hreg, hinv, rfl, rfl, rfl, rfl, rfl, hwindow⟩ :=
    TimeFrequencyTransform.create_spec hforward (by omega) signal
  obtain ⟨count, hcount⟩ := h.window
  rw [Nat.mul_comm] at hcount
  have hseveral : 1 < count := by
    refine Nat.lt_of_mul_lt_mul_right (a := forward.hopSize) ?_
    omega
  have hone : forward.framesPerPeriod = 1 := by
    refine Nat.eq_of_mul_eq_mul_right hhop ?_
    rw [← hreg.period, Nat.one_mul, h.one_hop]
  have haligned : ∀ m, forward.AlignedAt m := by
    refine (TimeFrequencyTransform.alignedAt_iff hreg h.size).mpr ⟨h.aligned, ?_⟩
    have hdvd : cVectorAlignmentSamples ∣ forward.windowLength := h.aligned.trans h.window
    rw [Nat.mod_eq_zero_of_dvd h.dftAligned, Nat.mod_eq_zero_of_dvd hdvd]
  have hconstant := (constantOverlap_unityHannWindow hhop hseveral).mul_left
    (desiredScaling Real.sqrt .Unitary dftSize / forward.fftWrapper.forwardScalingFactor)
  rw [← hcount, ← hwindow] at hconstant
  have hframes : forward.period / forward.hopSize = forward.framesPerPeriod := by
    rw [hreg.period, Nat.mul_div_cancel _ hhop]
  -- the parts have a common configuration, and nothing has been accumulated yet
  have hregular : (⟨forward, inverse⟩ : TimeFrequencyFeedthrough ℝ ℂ dftSize).Regular := by
    subst hparts
    exact ⟨hreg, rfl, rfl, hframes, rfl, rfl⟩
  have hinitial : Inv ⟨forward, inverse⟩ signal 0 ⟨forward, inverse⟩ := by
    subst hparts
    refine ⟨hinv, rfl, fun channelIdx _ => ?_⟩
    rw [Nat.zero_mul]
    exact accumulates_zero fun _ => rfl
  have hscaling : inverse.scalingFactor = calculateScalingFactor Real.sqrt .OneOverN
      forward.fftWrapper.inverseScalingFactor dftSize := by rw [hparts]
  obtain ⟨f', mtx, signals, hrun, hdelays⟩ :=
    run_delays hregular hinitial haligned hone hcount h.size hconstant outputs t
  refine ⟨f', mtx, signals, hrun, fun channelIdx hchannel k hk => ?_⟩
  rw [hdelays channelIdx hchannel k hk]
  congr 1
  show inverse.scalingFactor * _ = _
  rw [hscaling, hcount]
  exact gain_eq forward.fftWrapper hhop count

/-- A signal flow with hops of 16 samples, and the default transform of 32 samples. -/
theorem create_delays_hop16 : ∃ f, create 16 2 32 16 (KissFftWrapper.defaultWrapper 16 (by decide)) =
      .ok f ∧
    ∀ signal outputs t, ∃ f' mtx signals, f.run signal outputs (t + 1) = .ok (f', mtx, signals) ∧
      ∀ channelIdx < 2, ∀ k < 16,
        signals channelIdx k = (32 : ℕ) / (2 * (16 : ℕ) * Real.sqrt (16 * 2 : ℕ)) *
          past (signal channelIdx) (t * 16 + k + 16) 32 :=
  create_delays ⟨rfl, by decide, by decide, by decide, by decide, by decide, by decide, by decide⟩ 2
    (KissFftWrapper.defaultWrapper 16 (by decide))

end TimeFrequencyFeedthrough

end Visr
