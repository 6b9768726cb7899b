import Mathlib.Algebra.Order.Floor.Ring
import Mathlib.Data.Rat.Floor
import Mathlib.Tactic.IntervalCases
import Mathlib.Tactic.NormNum
import Visr.Libefl.AlignedStorage
import Visr.Libobjectmodel.Object

/-!
# Impulse responses of late reverberation

A noise sequence for each subband is multiplied with an envelope and added to the impulse response.
The envelope of a subband is refused if its attack does not end within the filter, which is found
out when the subbands before it have been added.

## Main results

* `LateReverbFilterCalculator.createEnvelope_cases` — when an envelope is created, and its values.
* `LateReverbFilterCalculator.addSubBands_accepted` — the run over subbands that are accepted.
* `LateReverbFilterCalculator.complete_iff` — **when the calculation is complete**.
-/

namespace Visr

/-- The component, with the noise sequences that the constructor has created. -/
structure LateReverbFilterCalculator (K : Type) where
  samplingFrequency : ℕ
  mAlignment : ℕ
  mNumberOfObjects : ℕ
  mNumberOfSubBands : ℕ
  mFilterLength : ℕ
  mSubBandNoiseSequences : Efl.BasicMatrix K
  samplingFrequency_pos : 0 < samplingFrequency
  mAlignment_eq : mAlignment = cVectorAlignmentSamples
  mNumberOfSubBands_eq : mNumberOfSubBands = cNumberOfSubBands
  mFilterLength_pos : 0 < mFilterLength
  mFilterLength_lt : mFilterLength < 2 ^ 64
  numberOfRows_eq : mSubBandNoiseSequences.numberOfRows = mNumberOfObjects * mNumberOfSubBands
  numberOfColumns_eq : mSubBandNoiseSequences.numberOfColumns = mFilterLength
  alignmentElements_eq : mSubBandNoiseSequences.array.alignmentElements = mAlignment

namespace LateReverbFilterCalculator

section Arithmetic

/-- The difference of numbers of type `std::size_t`. -/
def subSize (a b : ℕ) : ℕ := (a + (2 ^ 64 - b)) % 2 ^ 64

/-- The conversion of a whole number to `std::size_t`, which is not defined out of its range. -/
def toSize (z : ℤ) : Except Abort ℕ :=
  if 0 ≤ z ∧ z < 2 ^ 64 then .ok z.toNat else .error .undefined

variable {K : Type} [Field K] [LinearOrder K] [FloorRing K]

/-- `std::round()`, away from zero in the middle between two whole numbers. -/
def round (x : K) : ℤ := if 0 ≤ x then ⌊x + 1 / (1 + 1)⌋ else ⌈x - 1 / (1 + 1)⌉

end Arithmetic

section Memory

variable {K : Type}

/-- A loop that assigns elements of an array, all of which have to be inside of it. -/
def assign (capacity start stop : ℕ) (values data : ℕ → K) : Except Abort (ℕ → K) :=
  if start < stop ∧ capacity < stop then .error .undefined
  else .ok fun n => if start ≤ n ∧ n < stop then values n else data n

/-- An element of an array with a value for each subband. -/
def element (coeffs : LateReverbCoeffs K) (subBandIdx : ℕ) : Except Abort K :=
  match coeffs.toList[subBandIdx]? with
  | some value => .ok value
  | none => .error .undefined

theorem assign_of_le {capacity start stop : ℕ} (h : stop ≤ capacity) (values data : ℕ → K) :
    assign capacity start stop values data =
      .ok fun n => if start ≤ n ∧ n < stop then values n else data n :=
  if_neg fun hover => absurd h hover.2.not_ge

end Memory

variable {K : Type} [Field K] [LinearOrder K] [FloorRing K] (exp : K → K)

/-- `createEnvelope()`, which writes to an array with the given capacity. -/
def createEnvelope (capacity numSamples : ℕ) (data : ℕ → K)
    (initialDelay gain attackCoeff decayCoeff samplingFrequency : K) : Except Abort (ℕ → K) := do
  let initialDelaySamples ← toSize (round (initialDelay * samplingFrequency))
  let attackCoeffSamples ← toSize (round (attackCoeff * samplingFrequency))
  let decayCoeffSamples := decayCoeff / samplingFrequency
  if initialDelaySamples ≥ numSamples ∨
      (initialDelaySamples + attackCoeffSamples) % 2 ^ 64 ≥ numSamples then
    .error (.exception (.invalidArgument
      "The late reverberation envelope exceeds the maximum number of samples"))
  else
    let attackEnd := (attackCoeffSamples + initialDelaySamples) % 2 ^ 64
    let data ← assign capacity 0 initialDelaySamples (fun _ => 0) data
    let data ← assign capacity initialDelaySamples attackEnd
      (fun n => gain * (((n - initialDelaySamples : ℕ) : K) / (attackCoeffSamples : K))) data
    assign capacity attackEnd numSamples
      (fun n => gain * exp (decayCoeffSamples *
        (subSize (subSize n attackCoeffSamples) initialDelaySamples : K))) data

variable (s : LateReverbFilterCalculator K)

/-- What is left in the envelope and in the impulse response. -/
structure Buffers (K : Type) where
  envelope : ℕ → K
  ir : ℕ → K

/-- A subband is multiplied with its envelope and added, where the first one replaces what was
before.  The rows, the envelope and the result have to hold enough elements. -/
def addSubBand (objectIdx : ℕ) (lateParams : LateReverb K) (irAddress irLength finalAlignment : ℕ)
    (subBandIdx : ℕ) (buffers : Buffers K) : Buffers K × Except Abort Unit :=
  let envelope : Except Abort (ℕ → K) := do
    let level ← element lateParams.levels subBandIdx
    let attackTime ← element lateParams.attackTimes subBandIdx
    let decayCoeff ← element lateParams.decayCoeffs subBandIdx
    createEnvelope exp s.mFilterLength s.mFilterLength buffers.envelope lateParams.onsetDelay level
      attackTime decayCoeff s.samplingFrequency
  match envelope with
  | .error e => (buffers, .error e)
  | .ok envelope =>
    let rowIdx := objectIdx * s.mNumberOfSubBands + subBandIdx
    if s.mSubBandNoiseSequences.numberOfRows ≤ rowIdx ∨
        s.mSubBandNoiseSequences.numberOfColumns < s.mFilterLength ∨
        irLength < s.mFilterLength then
      (⟨envelope, buffers.ir⟩, .error .undefined)
    else
      let res := if subBandIdx = 0 then
          vectorMultiply (s.mSubBandNoiseSequences.row rowIdx) ⟨0, envelope⟩
            ⟨irAddress, buffers.ir⟩ s.mFilterLength finalAlignment
        else vectorMultiplyAddInplace (s.mSubBandNoiseSequences.row rowIdx) ⟨0, envelope⟩
            ⟨irAddress, buffers.ir⟩ s.mFilterLength finalAlignment
      match res with
      | .error _ => (⟨envelope, buffers.ir⟩, .error (.exception (.runtimeError
          "ReverbParameterCalculator::calculateImpulseResponse(): Calculation of final envelope failed.")))
      | .ok ir => (⟨envelope, ir⟩, .ok ())

/-- The loop over the subbands, which is left with an exception. -/
def addSubBands (objectIdx : ℕ) (lateParams : LateReverb K)
    (irAddress irLength finalAlignment : ℕ) :
    List ℕ → Buffers K → Buffers K × Except Abort Unit
  | [], buffers => (buffers, .ok ())
  | subBandIdx :: subBands, buffers =>
    match s.addSubBand exp objectIdx lateParams irAddress irLength finalAlignment subBandIdx
      buffers with
    | (buffers, .error e) => (buffers, .error e)
    | (buffers, .ok _) =>
      addSubBands objectIdx lateParams irAddress irLength finalAlignment subBands buffers

/-- The elements after the filter are cleared.  The number of elements that is passed is the result
of a comparison. -/
def zeroRemaining (ir : Pointer K) (irLength : ℕ) : (ℕ → K) × Except Abort Unit :=
  if irLength > s.mFilterLength then
    let numElements := if irLength > s.mFilterLength then 1 else 0
    if irLength < s.mFilterLength + numElements then (ir.data, .error .undefined)
    else match vectorZero (ir.offset s.mFilterLength) numElements 0 with
      | .error _ => (ir.data, .error (.exception (.runtimeError
          "ReverbParameterCalculator::calculateImpulseResponse(): Zeroing of remaining ir taps failed.")))
      | .ok values => (overwrite ir.data s.mFilterLength numElements values, .ok ())
  else (ir.data, .ok ())

/-- The block that may be left with an exception. -/
def tryImpulseResponse (objectIdx : ℕ) (lateParams : LateReverb K) (ir : Pointer K)
    (irLength alignment : ℕ) : (ℕ → K) × Except Abort Unit :=
  let finalAlignment := min s.mAlignment alignment
  if irLength < s.mFilterLength then
    (ir.data, .error (.exception (.runtimeError
      "LateReverbFilterCalculator::calculateImpulseResponse(): the passed filter buffer is too short.")))
  else
    match s.addSubBands exp objectIdx lateParams ir.address irLength finalAlignment
      (List.range s.mNumberOfSubBands) ⟨fun _ => 0, ir.data⟩ with
    | (buffers, .error e) => (buffers.ir, .error e)
    | (buffers, .ok _) => s.zeroRemaining ⟨ir.address, buffers.ir⟩ irLength

/-- `calculateImpulseResponse()`, with what the buffer holds afterwards.  Exceptions are caught. -/
def calculateImpulseResponse (objectIdx : ℕ) (lateParams : LateReverb K) (ir : Pointer K)
    (irLength alignment : ℕ) : Except Abort (ℕ → K) :=
  match s.tryImpulseResponse exp objectIdx lateParams ir irLength alignment with
  | (data, .ok _) => .ok data
  | (data, .error e) => if e.isCaught then .ok data else .error e

/-! ### What is intended -/

section Intended

/-- The value of a subband. -/
def coeff (coeffs : LateReverbCoeffs K) (subBandIdx : ℕ) : K := coeffs.toList.getD subBandIdx 0

/-- The onset delay in samples. -/
def delaySamples (lateParams : LateReverb K) : ℕ :=
  (round (lateParams.onsetDelay * s.samplingFrequency)).toNat

/-- The attack time of a subband in samples. -/
def attackSamples (lateParams : LateReverb K) (subBandIdx : ℕ) : ℕ :=
  (round (coeff lateParams.attackTimes subBandIdx * s.samplingFrequency)).toNat

/-- The envelope of a subband, whose attack ends at a given sample: zero before the delay, a linear
rise to the level, and an exponential decay. -/
def envelopeUntil (lateParams : LateReverb K) (subBandIdx attackEnd n : ℕ) : K :=
  if attackEnd ≤ n then
    coeff lateParams.levels subBandIdx *
      exp (coeff lateParams.decayCoeffs subBandIdx / s.samplingFrequency *
        ((n - attackEnd : ℕ) : K))
  else if s.delaySamples lateParams ≤ n then
    coeff lateParams.levels subBandIdx * (((n - s.delaySamples lateParams : ℕ) : K) /
      (s.attackSamples lateParams subBandIdx : K))
  else 0

/-- The end of the attack of a subband. -/
def attackEnd (lateParams : LateReverb K) (subBandIdx : ℕ) : ℕ :=
  s.delaySamples lateParams + s.attackSamples lateParams subBandIdx

/-- Delay and attack of a subband fit into the filter. -/
def Fits (lateParams : LateReverb K) (subBandIdx : ℕ) : Prop :=
  s.attackEnd lateParams subBandIdx < s.mFilterLength

/-- The noise of the first subbands with envelopes whose attacks end at the given samples. -/
def response (objectIdx : ℕ) (lateParams : LateReverb K) (attackEnds : ℕ → ℕ)
    (numberOfSubBands n : ℕ) : K :=
  ∑ subBandIdx ∈ Finset.range numberOfSubBands,
    s.mSubBandNoiseSequences.get (objectIdx * s.mNumberOfSubBands + subBandIdx) n *
      s.envelopeUntil exp lateParams subBandIdx (attackEnds subBandIdx) n

/-- **The calculation is complete**: the buffer holds the response of all subbands and zeros after
it, or, if a subband does not fit, it is unchanged.  Nothing is accessed out of range. -/
def Complete (objectIdx : ℕ) (lateParams : LateReverb K) (ir : Pointer K)
    (irLength alignment : ℕ) : Prop :=
  ∃ data, s.calculateImpulseResponse exp objectIdx lateParams ir irLength alignment = .ok data ∧
    (∀ n, irLength ≤ n → data n = ir.data n) ∧
    ((∀ subBandIdx < s.mNumberOfSubBands, s.Fits lateParams subBandIdx) →
      ∀ n < irLength, data n = if n < s.mFilterLength then
        s.response exp objectIdx lateParams (s.attackEnd lateParams) s.mNumberOfSubBands n
      else 0) ∧
    ((¬∀ subBandIdx < s.mNumberOfSubBands, s.Fits lateParams subBandIdx) →
      ∀ n < irLength, data n = ir.data n)

/-- The numbers of samples of a subband are in the range of `std::size_t`. -/
def Convertible (lateParams : LateReverb K) (subBandIdx : ℕ) : Prop :=
  s.delaySamples lateParams < 2 ^ 64 ∧ s.attackSamples lateParams subBandIdx < 2 ^ 64

/-- The end of the attack in the arithmetic of `std::size_t`. -/
def wrappedEnd (lateParams : LateReverb K) (subBandIdx : ℕ) : ℕ :=
  s.attackEnd lateParams subBandIdx % 2 ^ 64

/-- A subband passes the check of its envelope. -/
def Accepted (lateParams : LateReverb K) (subBandIdx : ℕ) : Prop :=
  s.Convertible lateParams subBandIdx ∧ s.delaySamples lateParams < s.mFilterLength ∧
    s.wrappedEnd lateParams subBandIdx < s.mFilterLength

/-- A subband does not pass it. -/
def Refused (lateParams : LateReverb K) (subBandIdx : ℕ) : Prop :=
  s.Convertible lateParams subBandIdx ∧ ¬s.Accepted lateParams subBandIdx

/-- **The condition.**  All subbands fit, and the buffer holds zeros after the first sample that
follows the filter.  Or a subband does not fit, and the first one is refused, or the buffer already
holds the response of those before the one that is refused. -/
def CompleteWhen (objectIdx : ℕ) (lateParams : LateReverb K) (ir : Pointer K) (irLength : ℕ) :
    Prop :=
  ((∀ subBandIdx < s.mNumberOfSubBands, s.Fits lateParams subBandIdx) ∧
      ∀ n, s.mFilterLength < n → n < irLength → ir.data n = 0) ∨
    (¬∀ subBandIdx < s.mNumberOfSubBands, s.Fits lateParams subBandIdx) ∧
      ∃ k ≤ s.mNumberOfSubBands, (∀ subBandIdx < k, s.Accepted lateParams subBandIdx) ∧
        (k < s.mNumberOfSubBands → s.Refused lateParams k) ∧
        (0 < k → ∀ n < s.mFilterLength, ir.data n =
          s.response exp objectIdx lateParams (s.wrappedEnd lateParams) k n) ∧
        (k = s.mNumberOfSubBands → s.mFilterLength < irLength → ir.data s.mFilterLength = 0)

/-- **What the caller guarantees**: times that are not negative, an object index in range, and a
buffer that is long enough and aligned as promised. -/
structure Admissible (objectIdx : ℕ) (lateParams : LateReverb K) (ir : Pointer K)
    (irLength alignment : ℕ) : Prop where
  object : objectIdx < s.mNumberOfObjects
  delay : 0 ≤ lateParams.onsetDelay
  attack : ∀ attackTime ∈ lateParams.attackTimes.toList, 0 ≤ attackTime
  length : s.mFilterLength ≤ irLength
  alignment : alignment = 0 ∨ (∃ k < 64, alignment = 2 ^ k) ∧ alignment ∣ ir.address

end Intended

/-! ### Envelopes -/

theorem subSize_subSize {n a b : ℕ} (hn : n < 2 ^ 64) (ha : a < 2 ^ 64) (hb : b < 2 ^ 64)
    (h : (b + a) % 2 ^ 64 ≤ n) : subSize (subSize n a) b = n - (b + a) % 2 ^ 64 := by
  unfold subSize
  omega

theorem toSize_of_nonneg {z : ℤ} (hz : 0 ≤ z) :
    toSize z = if z.toNat < 2 ^ 64 then .ok z.toNat else .error .undefined := by
  unfold toSize
  by_cases hlt : z < 2 ^ 64
  · rw [if_pos ⟨hz, hlt⟩, if_pos (by omega)]
  · rw [if_neg (fun h => hlt h.2), if_neg (by omega)]

omit [LinearOrder K] [FloorRing K] in
theorem element_of_lt (coeffs : LateReverbCoeffs K) {subBandIdx : ℕ}
    (h : subBandIdx < cNumberOfSubBands) :
    element coeffs subBandIdx = .ok (coeff coeffs subBandIdx) := by
  have hlt : subBandIdx < coeffs.toList.length := coeffs.toList_length.symm ▸ h
  unfold element coeff
  rw [List.getD_eq_getElem?_getD, List.getElem?_eq_getElem hlt]
  rfl

omit [LinearOrder K] [FloorRing K] in
theorem coeff_mem (coeffs : LateReverbCoeffs K) {subBandIdx : ℕ}
    (h : subBandIdx < cNumberOfSubBands) : coeff coeffs subBandIdx ∈ coeffs.toList := by
  have hlt : subBandIdx < coeffs.toList.length := coeffs.toList_length.symm ▸ h
  unfold coeff
  rw [List.getD_eq_getElem?_getD, List.getElem?_eq_getElem hlt]
  exact List.getElem_mem hlt

section Envelopes

variable [IsStrictOrderedRing K]

theorem round_nonneg {x : K} (hx : 0 ≤ x) : 0 ≤ round x := by
  rw [round, if_pos hx]
  exact Int.floor_nonneg.mpr (add_nonneg hx (by positivity))

variable {s} {objectIdx : ℕ} {lateParams : LateReverb K} {ir : Pointer K}
  {irLength alignment subBandIdx : ℕ}
  (h : s.Admissible objectIdx lateParams ir irLength alignment)
  (hband : subBandIdx < cNumberOfSubBands) (data : ℕ → K)

/-- The call of `createEnvelope()` for a subband. -/
def envelopeOf (exp : K → K) (s : LateReverbFilterCalculator K) (lateParams : LateReverb K)
    (subBandIdx : ℕ) (data : ℕ → K) : Except Abort (ℕ → K) :=
  createEnvelope exp s.mFilterLength s.mFilterLength data lateParams.onsetDelay
    (coeff lateParams.levels subBandIdx) (coeff lateParams.attackTimes subBandIdx)
    (coeff lateParams.decayCoeffs subBandIdx) s.samplingFrequency

include h hband in
/-- The numbers of samples are whole numbers that are not negative. -/
theorem toSize_round :
    toSize (round (lateParams.onsetDelay * s.samplingFrequency)) =
        (if s.delaySamples lateParams < 2 ^ 64 then .ok (s.delaySamples lateParams)
        else .error .undefined) ∧
      toSize (round (coeff lateParams.attackTimes subBandIdx * s.samplingFrequency)) =
        (if s.attackSamples lateParams subBandIdx < 2 ^ 64 then
          .ok (s.attackSamples lateParams subBandIdx) else .error .undefined) := by
  have hfs : (0 : K) ≤ s.samplingFrequency := Nat.cast_nonneg _
  exact ⟨toSize_of_nonneg (round_nonneg (mul_nonneg h.delay hfs)),
    toSize_of_nonneg (round_nonneg (mul_nonneg (h.attack _ (coeff_mem _ hband)) hfs))⟩

include h hband in
/-- Numbers of samples that are too large are not converted. -/
theorem envelopeOf_undefined (hconv : ¬s.Convertible lateParams subBandIdx) :
    envelopeOf exp s lateParams subBandIdx data = .error .undefined := by
  obtain ⟨hdelay, hattack⟩ := toSize_round h hband
  unfold envelopeOf createEnvelope
  rw [hdelay, hattack]
  by_cases hlt : s.delaySamples lateParams < 2 ^ 64
  · rw [if_pos hlt, if_neg (fun hlt' => hconv ⟨hlt, hlt'⟩)]
    rfl
  · rw [if_neg hlt]
    rfl

include h hband in
/-- An envelope that does not pass the check is not created. -/
theorem envelopeOf_refused (hrefused : s.Refused lateParams subBandIdx) :
    ∃ what, envelopeOf exp s lateParams subBandIdx data =
      .error (.exception (.invalidArgument what)) := by
  obtain ⟨hdelay, hattack⟩ := toSize_round h hband
  obtain ⟨hconv, hrefused⟩ := hrefused
  have hcheck : s.delaySamples lateParams ≥ s.mFilterLength ∨
      (s.delaySamples lateParams + s.attackSamples lateParams subBandIdx) % 2 ^ 64 ≥
        s.mFilterLength := by
    by_contra hnot
    obtain ⟨hd, ha⟩ := not_or.mp hnot
    exact hrefused ⟨hconv, not_le.mp hd, not_le.mp ha⟩
  unfold envelopeOf createEnvelope
  rw [hdelay, hattack, if_pos hconv.1, if_pos hconv.2]
  exact ⟨_, if_pos hcheck⟩

include h hband in
/-- An envelope that passes the check. -/
theorem envelopeOf_accepted (haccepted : s.Accepted lateParams subBandIdx) :
    ∃ envelope, envelopeOf exp s lateParams subBandIdx data = .ok envelope ∧
      ∀ n < s.mFilterLength, envelope n =
        s.envelopeUntil exp lateParams subBandIdx (s.wrappedEnd lateParams subBandIdx) n := by
  obtain ⟨hdelay, hattack⟩ := toSize_round h hband
  obtain ⟨⟨hconv, hconv'⟩, hd, ha⟩ := haccepted
  have hcheck : ¬(s.delaySamples lateParams ≥ s.mFilterLength ∨
      (s.delaySamples lateParams + s.attackSamples lateParams subBandIdx) % 2 ^ 64 ≥
        s.mFilterLength) := by
    rintro (hge | hge)
    · exact absurd hd hge.not_gt
    · exact absurd ha hge.not_gt
  have hend : (s.attackSamples lateParams subBandIdx + s.delaySamples lateParams) % 2 ^ 64 =
      s.wrappedEnd lateParams subBandIdx := by
    rw [Nat.add_comm]
    rfl
  unfold envelopeOf createEnvelope
  rw [hdelay, hattack, if_pos hconv, if_pos hconv', ok_bind, ok_bind, if_neg hcheck, hend,
    assign_of_le hd.le, ok_bind, assign_of_le ha.le, ok_bind, assign_of_le le_rfl]
  refine ⟨_, rfl, fun n hn => ?_⟩
  unfold envelopeUntil
  -- the decay, the attack and the silence before it
  by_cases hafter : s.wrappedEnd lateParams subBandIdx ≤ n
  · rw [if_pos ⟨hafter, hn⟩, if_pos hafter,
      subSize_subSize (hn.trans s.mFilterLength_lt) hconv' hconv hafter]
    rfl
  · have hbefore := not_le.mp hafter
    rw [if_neg (fun hin => hafter hin.1), if_neg hafter]
    by_cases hramp : s.delaySamples lateParams ≤ n
    · rw [if_pos ⟨hramp, hbefore⟩, if_pos hramp]
    · rw [if_neg (fun hin => hramp hin.1), if_neg hramp,
        if_pos ⟨Nat.zero_le n, not_le.mp hramp⟩]

end Envelopes

/-! ### Subbands -/

/-- The alignment that is used divides both alignments. -/
theorem min_alignment {alignment : ℕ} (h : ∃ k < 64, alignment = 2 ^ k) :
    alignmentIsPowerOfTwo (min cVectorAlignmentSamples alignment) = true ∧
      min cVectorAlignmentSamples alignment ∣ cVectorAlignmentSamples ∧
      min cVectorAlignmentSamples alignment ∣ alignment := by
  obtain ⟨k, hk, rfl⟩ := h
  have hdefault : cVectorAlignmentSamples = 2 ^ 4 := rfl
  rw [hdefault]
  rcases Nat.le_total 4 k with hle | hle
  · rw [Nat.min_eq_left (Nat.pow_le_pow_right (by decide) hle)]
    exact ⟨by decide, Nat.dvd_refl _, Nat.pow_dvd_pow 2 hle⟩
  · rw [Nat.min_eq_right (Nat.pow_le_pow_right (by decide) hle)]
    exact ⟨Efl.AlignedArray.alignmentIsPowerOfTwo_pow k hk, Nat.pow_dvd_pow 2 hle, Nat.dvd_refl _⟩

section SubBands

variable {s} {objectIdx : ℕ} {lateParams : LateReverb K} {ir : Pointer K}
  {irLength alignment : ℕ} (h : s.Admissible objectIdx lateParams ir irLength alignment)

include h

omit [FloorRing K] in
/-- Addresses that are aligned by default, and that of the buffer, pass the checks. -/
theorem checkAlignment_final {address : ℕ}
    (haddress : cVectorAlignmentSamples ∣ address ∨ address = ir.address) :
    checkAlignment address (min s.mAlignment alignment) = true := by
  rw [s.mAlignment_eq]
  rcases h.alignment with rfl | ⟨hpow, hdvd⟩
  · rfl
  · obtain ⟨hvalid, hdefault, hpromised⟩ := min_alignment hpow
    refine checkAlignment_of_dvd (Or.inr hvalid) fun _ => ?_
    rcases haddress with haddress | rfl
    · exact hdefault.trans haddress
    · exact hpromised.trans hdvd

omit [FloorRing K] in
/-- The noise sequences of an object are rows of the matrix. -/
theorem rowIdx_lt {subBandIdx : ℕ} (hband : subBandIdx < s.mNumberOfSubBands) :
    objectIdx * s.mNumberOfSubBands + subBandIdx < s.mSubBandNoiseSequences.numberOfRows := by
  rw [s.numberOfRows_eq]
  calc objectIdx * s.mNumberOfSubBands + subBandIdx
      < objectIdx * s.mNumberOfSubBands + s.mNumberOfSubBands := by omega
    _ = (objectIdx + 1) * s.mNumberOfSubBands := (Nat.succ_mul _ _).symm
    _ ≤ s.mNumberOfObjects * s.mNumberOfSubBands := Nat.mul_le_mul_right _ h.object

/-- All accesses for a subband are in range, and the alignments are as promised. -/
theorem addSubBand_eq {subBandIdx : ℕ} (hband : subBandIdx < s.mNumberOfSubBands)
    (buffers : Buffers K) :
    s.addSubBand exp objectIdx lateParams ir.address irLength (min s.mAlignment alignment)
        subBandIdx buffers =
      match envelopeOf exp s lateParams subBandIdx buffers.envelope with
      | .error e => (buffers, .error e)
      | .ok envelope =>
        (⟨envelope, fun n => if n < s.mFilterLength then
          (if subBandIdx = 0 then 0 else buffers.ir n) +
            s.mSubBandNoiseSequences.get (objectIdx * s.mNumberOfSubBands + subBandIdx) n *
              envelope n
          else buffers.ir n⟩, .ok ()) := by
  have hlt : subBandIdx < cNumberOfSubBands := s.mNumberOfSubBands_eq ▸ hband
  have hrange : ¬(s.mSubBandNoiseSequences.numberOfRows ≤
        objectIdx * s.mNumberOfSubBands + subBandIdx ∨
      s.mSubBandNoiseSequences.numberOfColumns < s.mFilterLength ∨
      irLength < s.mFilterLength) := by
    rintro (hrow | hcolumn | hlength)
    · exact absurd (rowIdx_lt h hband) hrow.not_gt
    · exact absurd s.numberOfColumns_eq hcolumn.ne
    · exact absurd h.length hlength.not_ge
  -- the rows start at multiples of the alignment that the object has, the buffer at one of its own
  have hnoise := checkAlignment_final h (Or.inl
    (s.mAlignment_eq ▸ s.alignmentElements_eq ▸ s.mSubBandNoiseSequences.row_aligned
      (objectIdx * s.mNumberOfSubBands + subBandIdx)))
  have henvelope := checkAlignment_final h (Or.inl (Nat.dvd_zero _))
  have hbuffer := checkAlignment_final h (Or.inr rfl)
  unfold addSubBand
  simp only [element_of_lt _ hlt, ok_bind]
  change (match envelopeOf exp s lateParams subBandIdx buffers.envelope with
    | .error e => _
    | .ok envelope => _) = _
  cases envelopeOf exp s lateParams subBandIdx buffers.envelope with
  | error e => rfl
  | ok envelope =>
    simp only
    rw [if_neg hrange]
    unfold vectorMultiply vectorMultiplyAddInplace
    have hrow : checkAlignment (s.mSubBandNoiseSequences.row
        (objectIdx * s.mNumberOfSubBands + subBandIdx)).address (min s.mAlignment alignment) =
          true := hnoise
    simp only [hrow, henvelope, hbuffer]
    by_cases hfirst : subBandIdx = 0
    · simp only [if_pos hfirst, zero_add]
      rfl
    · simp only [if_neg hfirst]
      rfl

/-- What the buffer holds after the first `k` subbands. -/
structure After (exp : K → K) (s : LateReverbFilterCalculator K) (objectIdx : ℕ)
    (lateParams : LateReverb K) (ir : Pointer K) (k : ℕ) (data : ℕ → K) : Prop where
  added : 0 < k → ∀ n < s.mFilterLength, data n =
    s.response exp objectIdx lateParams (s.wrappedEnd lateParams) k n
  unchanged : ∀ n, k = 0 ∨ s.mFilterLength ≤ n → data n = ir.data n

variable [IsStrictOrderedRing K]

/-- **A subband that is accepted is added.** -/
theorem addSubBand_accepted {k : ℕ} (hk : k < s.mNumberOfSubBands)
    (haccepted : s.Accepted lateParams k) {buffers : Buffers K}
    (hafter : After exp s objectIdx lateParams ir k buffers.ir) :
    ∃ buffers', s.addSubBand exp objectIdx lateParams ir.address irLength
        (min s.mAlignment alignment) k buffers = (buffers', .ok ()) ∧
      After exp s objectIdx lateParams ir (k + 1) buffers'.ir := by
  have hlt : k < cNumberOfSubBands := s.mNumberOfSubBands_eq ▸ hk
  obtain ⟨envelope, hok, henvelope⟩ :=
    envelopeOf_accepted exp h hlt buffers.envelope haccepted
  rw [addSubBand_eq exp h hk, hok]
  refine ⟨_, rfl, fun _ n hn => ?_, fun n hn => ?_⟩
  · have hsum : (if k = 0 then 0 else buffers.ir n) =
        s.response exp objectIdx lateParams (s.wrappedEnd lateParams) k n := by
      by_cases hfirst : k = 0
      · subst hfirst
        rfl
      · rw [if_neg hfirst]
        exact hafter.added (Nat.pos_of_ne_zero hfirst) n hn
    simp only
    rw [if_pos hn, hsum, henvelope n hn]
    exact (Finset.sum_range_succ _ k).symm
  · have hle : s.mFilterLength ≤ n := hn.resolve_left (Nat.succ_ne_zero k)
    simp only
    rw [if_neg hle.not_gt]
    exact hafter.unchanged n (Or.inr hle)

/-- **The run over subbands that are accepted.** -/
theorem addSubBands_accepted (m : ℕ) (subBands : List ℕ) :
    ∀ (k : ℕ) (buffers : Buffers K), k + m ≤ s.mNumberOfSubBands →
      (∀ subBandIdx < k + m, s.Accepted lateParams subBandIdx) →
      After exp s objectIdx lateParams ir k buffers.ir →
      ∃ buffers', s.addSubBands exp objectIdx lateParams ir.address irLength
          (min s.mAlignment alignment) (List.range' k m ++ subBands) buffers =
        s.addSubBands exp objectIdx lateParams ir.address irLength
          (min s.mAlignment alignment) subBands buffers' ∧
        After exp s objectIdx lateParams ir (k + m) buffers'.ir := by
  induction m with
  | zero => exact fun _ _ _ _ hafter => ⟨_, rfl, hafter⟩
  | succ m ih =>
    intro k buffers hle haccepted hafter
    obtain ⟨buffers', hok, hafter'⟩ :=
      addSubBand_accepted exp h (by omega) (haccepted k (by omega)) hafter
    have hnext := ih (k + 1) buffers' (by omega)
      (fun subBandIdx hlt => haccepted subBandIdx (by omega)) hafter'
    rw [Nat.add_assoc, Nat.add_comm 1 m] at hnext
    rw [List.range'_succ, List.cons_append, addSubBands, hok]
    exact hnext

/-- The loop up to the first subband that is not accepted. -/
theorem addSubBands_upTo {k : ℕ} (hk : k ≤ s.mNumberOfSubBands)
    (haccepted : ∀ subBandIdx < k, s.Accepted lateParams subBandIdx) :
    ∃ buffers, s.addSubBands exp objectIdx lateParams ir.address irLength
        (min s.mAlignment alignment) (List.range s.mNumberOfSubBands) ⟨fun _ => 0, ir.data⟩ =
      s.addSubBands exp objectIdx lateParams ir.address irLength (min s.mAlignment alignment)
        (List.range' k (s.mNumberOfSubBands - k)) buffers ∧
      After exp s objectIdx lateParams ir k buffers.ir := by
  have hsplit : List.range s.mNumberOfSubBands =
      List.range' 0 k ++ List.range' k (s.mNumberOfSubBands - k) := by
    have happend := List.range'_append_1 (s := 0) (m := k) (n := s.mNumberOfSubBands - k)
    rw [Nat.zero_add, Nat.add_sub_cancel' hk] at happend
    rw [happend, List.range_eq_range']
  have hstart : After exp s objectIdx lateParams ir 0 ir.data :=
    ⟨fun hpos => absurd hpos (Nat.lt_irrefl 0), fun _ _ => rfl⟩
  have hrun := addSubBands_accepted exp h k (List.range' k (s.mNumberOfSubBands - k))
    0 ⟨fun _ => 0, ir.data⟩ (by omega) (by simpa using haccepted) hstart
  rw [hsplit]
  simpa using hrun

/-! ### The calculation -/

/-- Times that are too long leave the calculation undefined. -/
theorem calculate_undefined {k : ℕ} (hk : k < s.mNumberOfSubBands)
    (haccepted : ∀ subBandIdx < k, s.Accepted lateParams subBandIdx)
    (hconv : ¬s.Convertible lateParams k) :
    s.calculateImpulseResponse exp objectIdx lateParams ir irLength alignment =
      .error .undefined := by
  obtain ⟨buffers, hrun, -⟩ := addSubBands_upTo exp h hk.le haccepted
  have hcount : s.mNumberOfSubBands - k = (s.mNumberOfSubBands - k - 1) + 1 := by omega
  have hband := addSubBand_eq exp h hk buffers
  rw [envelopeOf_undefined exp h (s.mNumberOfSubBands_eq ▸ hk) _ hconv] at hband
  rw [hcount, List.range'_succ, addSubBands, hband] at hrun
  unfold calculateImpulseResponse tryImpulseResponse
  simp only
  rw [if_neg h.length.not_gt, hrun]
  rfl

/-- The exception of a subband that is refused is caught. -/
theorem calculate_refused {k : ℕ} (hk : k < s.mNumberOfSubBands)
    (haccepted : ∀ subBandIdx < k, s.Accepted lateParams subBandIdx)
    (hrefused : s.Refused lateParams k) :
    ∃ data, s.calculateImpulseResponse exp objectIdx lateParams ir irLength alignment = .ok data ∧
      After exp s objectIdx lateParams ir k data := by
  obtain ⟨buffers, hrun, hafter⟩ := addSubBands_upTo exp h hk.le haccepted
  have hcount : s.mNumberOfSubBands - k = (s.mNumberOfSubBands - k - 1) + 1 := by omega
  have hband := addSubBand_eq exp h hk buffers
  obtain ⟨what, hwhat⟩ := envelopeOf_refused exp h (s.mNumberOfSubBands_eq ▸ hk)
    buffers.envelope hrefused
  rw [hwhat] at hband
  rw [hcount, List.range'_succ, addSubBands, hband] at hrun
  refine ⟨buffers.ir, ?_, hafter⟩
  unfold calculateImpulseResponse tryImpulseResponse
  simp only
  rw [if_neg h.length.not_gt, hrun]
  rfl

/-- If all subbands are accepted, one sample after the filter is cleared. -/
theorem calculate_accepted
    (haccepted : ∀ subBandIdx < s.mNumberOfSubBands, s.Accepted lateParams subBandIdx) :
    ∃ data, s.calculateImpulseResponse exp objectIdx lateParams ir irLength alignment = .ok data ∧
      (∀ n < s.mFilterLength, data n =
        s.response exp objectIdx lateParams (s.wrappedEnd lateParams) s.mNumberOfSubBands n) ∧
      (s.mFilterLength < irLength → data s.mFilterLength = 0) ∧
      ∀ n, s.mFilterLength < n ∨ irLength ≤ n → data n = ir.data n := by
  obtain ⟨buffers, hrun, hafter⟩ := addSubBands_upTo exp h le_rfl haccepted
  rw [Nat.sub_self] at hrun
  have hpos : 0 < s.mNumberOfSubBands := s.mNumberOfSubBands_eq ▸ (by decide)
  -- what goes wrong while the rest is cleared is caught as well
  have hcalc : s.calculateImpulseResponse exp objectIdx lateParams ir irLength alignment =
      match s.zeroRemaining ⟨ir.address, buffers.ir⟩ irLength with
      | (data, .ok _) => .ok data
      | (data, .error e) => if e.isCaught then .ok data else .error e := by
    unfold calculateImpulseResponse tryImpulseResponse
    simp only
    rw [if_neg h.length.not_gt, hrun]
    rfl
  rw [hcalc]
  unfold zeroRemaining
  by_cases hlt : s.mFilterLength < irLength
  · have hrange : ¬irLength < s.mFilterLength + 1 := by omega
    simp only [gt_iff_lt, if_pos hlt, if_neg hrange, vectorZero, vectorFill]
    refine ⟨_, rfl, fun n hn => ?_, fun _ => ?_, fun n hn => ?_⟩
    · rw [overwrite_outside _ _ (Or.inl hn)]
      exact hafter.added hpos n hn
    · have hinside := overwrite_inside buffers.ir (fun idx => if idx < 1 then (0 : K) else
        (Pointer.offset ⟨ir.address, buffers.ir⟩ s.mFilterLength).data idx) s.mFilterLength
        Nat.zero_lt_one
      exact hinside.trans (if_pos Nat.zero_lt_one)
    · rw [overwrite_outside _ _ (Or.inr (by omega))]
      exact hafter.unchanged n (Or.inr (by omega))
  · simp only [gt_iff_lt, if_neg hlt]
    have hlength := h.length
    exact ⟨_, rfl, hafter.added hpos, fun hover => absurd hover hlt, fun n hn =>
      hafter.unchanged n (Or.inr (by omega))⟩

end SubBands

/-- There is a first number that does not have a property, or all have it. -/
theorem exists_first (P : ℕ → Prop) (m : ℕ) : ∃ k ≤ m, (∀ i < k, P i) ∧ (k < m → ¬P k) := by
  classical
  by_cases hall : ∀ i < m, P i
  · exact ⟨m, le_rfl, hall, fun hlt => absurd hlt (Nat.lt_irrefl m)⟩
  · have hex : ∃ i, i < m ∧ ¬P i := by
      simpa only [not_forall, exists_prop] using hall
    obtain ⟨hlt, hnot⟩ := Nat.find_spec hex
    refine ⟨Nat.find hex, hlt.le, fun i hi => ?_, fun _ => hnot⟩
    by_contra hi'
    exact Nat.find_min hex hi ⟨hi.trans hlt, hi'⟩

section Completeness

variable {s} {objectIdx : ℕ} {lateParams : LateReverb K} {ir : Pointer K}
  {irLength alignment : ℕ}

/-- A subband that fits is accepted, with the same end of its attack. -/
theorem accepted_of_fits {subBandIdx : ℕ} (hfits : s.Fits lateParams subBandIdx) :
    s.Accepted lateParams subBandIdx ∧
      s.wrappedEnd lateParams subBandIdx = s.attackEnd lateParams subBandIdx := by
  have hlt := s.mFilterLength_lt
  unfold Fits attackEnd at hfits
  have hmod : s.wrappedEnd lateParams subBandIdx = s.attackEnd lateParams subBandIdx :=
    Nat.mod_eq_of_lt (hfits.trans hlt)
  refine ⟨⟨⟨by omega, by omega⟩, by omega, ?_⟩, hmod⟩
  rw [hmod]
  exact hfits

variable [IsStrictOrderedRing K] (h : s.Admissible objectIdx lateParams ir irLength alignment)

include h

/-- If all subbands fit, the response is right, and only the samples after the first one that
follows the filter may be wrong. -/
theorem complete_iff_of_fits
    (hfits : ∀ subBandIdx < s.mNumberOfSubBands, s.Fits lateParams subBandIdx) :
    s.Complete exp objectIdx lateParams ir irLength alignment ↔
      ∀ n, s.mFilterLength < n → n < irLength → ir.data n = 0 := by
  obtain ⟨data, hok, hresponse, hzero, hrest⟩ := calculate_accepted exp h
    fun subBandIdx hband => (accepted_of_fits (hfits subBandIdx hband)).1
  have hends (n : ℕ) : s.response exp objectIdx lateParams (s.wrappedEnd lateParams)
      s.mNumberOfSubBands n =
        s.response exp objectIdx lateParams (s.attackEnd lateParams) s.mNumberOfSubBands n :=
    Finset.sum_congr rfl fun subBandIdx hband => by
      rw [(accepted_of_fits (hfits subBandIdx (Finset.mem_range.mp hband))).2]
  constructor
  · rintro ⟨data', hok', -, hcomplete, -⟩ n hn hlt
    cases hok.symm.trans hok'
    rw [← hrest n (Or.inl hn), hcomplete hfits n hlt, if_neg hn.not_gt]
  · refine fun htail => ⟨data, hok, fun n hn => hrest n (Or.inr hn), fun _ n hn => ?_,
      fun hnot => absurd hfits hnot⟩
    rcases Nat.lt_trichotomy n s.mFilterLength with hlt | rfl | hgt
    · rw [if_pos hlt, hresponse n hlt, hends]
    · rw [if_neg (Nat.lt_irrefl _), hzero hn]
    · rw [if_neg hgt.not_gt, hrest n (Or.inl hgt), htail n hgt hn]

/-- If a subband does not fit, the buffer has to hold what is stored there. -/
theorem complete_iff_of_not_fits
    (hfits : ¬∀ subBandIdx < s.mNumberOfSubBands, s.Fits lateParams subBandIdx) :
    s.Complete exp objectIdx lateParams ir irLength alignment ↔
      ∃ k ≤ s.mNumberOfSubBands, (∀ subBandIdx < k, s.Accepted lateParams subBandIdx) ∧
        (k < s.mNumberOfSubBands → s.Refused lateParams k) ∧
        (0 < k → ∀ n < s.mFilterLength, ir.data n =
          s.response exp objectIdx lateParams (s.wrappedEnd lateParams) k n) ∧
        (k = s.mNumberOfSubBands → s.mFilterLength < irLength → ir.data s.mFilterLength = 0) := by
  have hlength := h.length
  constructor
  · rintro ⟨data, hok, -, -, hunchanged⟩
    have hsame := hunchanged hfits
    -- the first subband that is not accepted ends the calculation
    obtain ⟨k, hk, haccepted, hnot⟩ := exists_first (s.Accepted lateParams) s.mNumberOfSubBands
    rcases hk.lt_or_eq with hlt | rfl
    · by_cases hconv : s.Convertible lateParams k
      · have hrefused : s.Refused lateParams k := ⟨hconv, hnot hlt⟩
        obtain ⟨data', hok', hafter⟩ := calculate_refused exp h hlt haccepted hrefused
        cases hok.symm.trans hok'
        refine ⟨k, hk, haccepted, fun _ => hrefused, fun hpos n hn => ?_,
          fun heq => absurd heq hlt.ne⟩
        rw [← hsame n (by omega), hafter.added hpos n hn]
      · cases hok.symm.trans (calculate_undefined exp h hlt haccepted hconv)
    · obtain ⟨data', hok', hresponse, hzero, -⟩ := calculate_accepted exp h haccepted
      cases hok.symm.trans hok'
      refine ⟨_, le_rfl, haccepted, fun hlt => absurd hlt (Nat.lt_irrefl _), fun _ n hn => ?_,
        fun _ hlt => ?_⟩
      · rw [← hsame n (by omega), hresponse n hn]
      · rw [← hsame _ hlt, hzero hlt]
  · rintro ⟨k, hk, haccepted, hrefused, hadded, hcleared⟩
    rcases hk.lt_or_eq with hlt | rfl
    · obtain ⟨data, hok, hafter⟩ :=
        calculate_refused exp h hlt haccepted (hrefused hlt)
      refine ⟨data, hok, fun n hn => hafter.unchanged n (Or.inr (by omega)),
        fun hall => absurd hall hfits, fun _ n hn => ?_⟩
      by_cases hfilter : n < s.mFilterLength
      · by_cases hpos : 0 < k
        · rw [hafter.added hpos n hfilter, hadded hpos n hfilter]
        · exact hafter.unchanged n (Or.inl (Nat.eq_zero_of_not_pos hpos))
      · exact hafter.unchanged n (Or.inr (not_lt.mp hfilter))
    · obtain ⟨data, hok, hresponse, hzero, hrest⟩ := calculate_accepted exp h haccepted
      have hpos : 0 < s.mNumberOfSubBands := s.mNumberOfSubBands_eq ▸ (by decide)
      refine ⟨data, hok, fun n hn => hrest n (Or.inr hn), fun hall => absurd hall hfits,
        fun _ n hn => ?_⟩
      -- the sample right behind the filter is cleared, the others behind it are not
      rcases Nat.lt_trichotomy n s.mFilterLength with hlt | rfl | hgt
      · rw [hresponse n hlt, hadded hpos n hlt]
      · rw [hzero hn, hcleared rfl hn]
      · exact hrest n (Or.inl hgt)

/-- **When the calculation is complete.** -/
theorem complete_iff :
    s.Complete exp objectIdx lateParams ir irLength alignment ↔
      s.CompleteWhen exp objectIdx lateParams ir irLength := by
  unfold CompleteWhen
  by_cases hfits : ∀ subBandIdx < s.mNumberOfSubBands, s.Fits lateParams subBandIdx
  · rw [complete_iff_of_fits exp h hfits]
    exact ⟨fun htail => Or.inl ⟨hfits, htail⟩, fun hwhen => hwhen.elim (·.2)
      fun hnot => absurd hfits hnot.1⟩
  · rw [complete_iff_of_not_fits exp h hfits]
    exact ⟨fun hk => Or.inr ⟨hfits, hk⟩, fun hwhen => hwhen.elim (fun hall => absurd hall.1 hfits)
      (·.2)⟩

end Completeness

/-! ### Incomplete calculations -/

/-- A filter of one sample for one object, with noise that is one. -/
def unitCalculator : LateReverbFilterCalculator ℚ where
  samplingFrequency := 1
  mAlignment := cVectorAlignmentSamples
  mNumberOfObjects := 1
  mNumberOfSubBands := cNumberOfSubBands
  mFilterLength := 1
  mSubBandNoiseSequences :=
    { array :=
        { alignmentElements := cVectorAlignmentSamples
          size := nextAlignedSize 1 cVectorAlignmentSamples * (1 * cNumberOfSubBands)
          address := 0
          data := fun _ => 1
          alignment_valid := ⟨4, by decide, rfl⟩
          address_aligned := Nat.dvd_zero _ }
      numberOfRows := 1 * cNumberOfSubBands
      numberOfColumns := 1
      size_eq := rfl }
  samplingFrequency_pos := Nat.one_pos
  mAlignment_eq := rfl
  mNumberOfSubBands_eq := rfl
  mFilterLength_pos := Nat.one_pos
  mFilterLength_lt := by decide
  numberOfRows_eq := rfl
  numberOfColumns_eq := rfl
  alignmentElements_eq := rfl

/-- Levels of one, and an attack time for the second subband only. -/
def unitParameters (attackTime : ℚ) : LateReverb ℚ where
  onsetDelay := 0
  attackTimes := ⟨[0, attackTime, 0, 0, 0, 0, 0, 0, 0], rfl⟩
  decayCoeffs := ⟨List.replicate 9 0, rfl⟩
  levels := ⟨List.replicate 9 1, rfl⟩

theorem attackTimes_unit (attackTime : ℚ) :
    (unitParameters attackTime).attackTimes.toList = [0, attackTime, 0, 0, 0, 0, 0, 0, 0] := rfl

theorem levels_unit (attackTime : ℚ) :
    (unitParameters attackTime).levels.toList = List.replicate 9 1 := rfl

theorem admissible_unit {attackTime : ℚ} (hattack : 0 ≤ attackTime) (data : ℕ → ℚ) {irLength : ℕ}
    (hlength : 1 ≤ irLength) :
    unitCalculator.Admissible 0 (unitParameters attackTime) ⟨0, data⟩ irLength 0 where
  object := Nat.one_pos
  delay := le_rfl
  attack := by
    intro x hx
    simp only [attackTimes_unit, List.mem_cons, List.not_mem_nil, or_false, or_self] at hx
    rcases hx with rfl | rfl | rfl <;> first | exact hattack | exact le_rfl
  length := hlength
  alignment := Or.inl rfl

theorem round_zero : round (0 : ℚ) = 0 := by
  norm_num [round]

/-- All subbands without an attack time fit. -/
theorem attackEnd_unit {attackTime : ℚ} {subBandIdx : ℕ}
    (hzero : coeff (unitParameters attackTime).attackTimes subBandIdx = 0) :
    unitCalculator.attackEnd (unitParameters attackTime) subBandIdx = 0 := by
  have hdelay : unitCalculator.delaySamples (unitParameters attackTime) = 0 := by
    simp [delaySamples, unitParameters, round_zero]
  have hattack : unitCalculator.attackSamples (unitParameters attackTime) subBandIdx = 0 := by
    rw [attackSamples, hzero, zero_mul, round_zero]
    rfl
  rw [attackEnd, hdelay, hattack]

/-- **Incomplete calculations.**  A buffer with two samples after the filter keeps the second one.
And the first subband replaces what the buffer holds, although the second one does not fit. -/
theorem not_complete_unit :
    ¬unitCalculator.Complete (fun _ => 1) 0 (unitParameters 0) ⟨0, fun _ => 1⟩ 3 0 ∧
      ¬unitCalculator.Complete (fun _ => 1) 0 (unitParameters 5) ⟨0, fun _ => 0⟩ 1 0 := by
  constructor
  · -- all attacks end in the buffer, but the tail behind the filter is not cleared
    have hfits : ∀ subBandIdx < unitCalculator.mNumberOfSubBands,
        unitCalculator.Fits (unitParameters 0) subBandIdx := by
      intro subBandIdx hband
      have hzero : coeff (unitParameters 0).attackTimes subBandIdx = 0 := by
        have hlt : subBandIdx < 9 := hband
        interval_cases subBandIdx <;> rfl
      rw [Fits, attackEnd_unit hzero]
      exact Nat.one_pos
    rw [complete_iff_of_fits _ (admissible_unit le_rfl _ (by decide)) hfits]
    exact fun htail => one_ne_zero (htail 2 (by decide) (by decide))
  · -- the attack of the second subband has five samples, more than the buffer
    have hround : round (5 * 1 : ℚ) = 5 := by
      rw [round, if_pos (by norm_num), Int.floor_eq_iff]
      norm_num
    have hdelay : unitCalculator.delaySamples (unitParameters 5) = 0 := by
      simp [delaySamples, unitParameters, round_zero]
    have hattack : unitCalculator.attackSamples (unitParameters 5) 1 = 5 := by
      have hone : coeff (unitParameters 5).attackTimes 1 * (unitCalculator.samplingFrequency : ℚ) =
          5 * 1 := by norm_num [coeff, attackTimes_unit, unitCalculator]
      rw [attackSamples, hone, hround]
      rfl
    have hend : unitCalculator.attackEnd (unitParameters 5) 1 = 5 := by
      rw [attackEnd, hdelay, hattack]
    have hfirst : ∀ subBandIdx < 1, unitCalculator.Accepted (unitParameters 5) subBandIdx := by
      intro subBandIdx hlt
      obtain rfl : subBandIdx = 0 := by omega
      refine (accepted_of_fits ?_).1
      rw [Fits, attackEnd_unit rfl]
      exact Nat.one_pos
    have hrefused : unitCalculator.Refused (unitParameters 5) 1 := by
      refine ⟨⟨?_, ?_⟩, fun haccepted => ?_⟩
      · rw [hdelay]
        norm_num
      · rw [hattack]
        norm_num
      · have := haccepted.2.2
        rw [wrappedEnd, hend] at this
        exact absurd this (by decide)
    obtain ⟨data, hok, hafter⟩ := calculate_refused (fun _ => 1)
      (admissible_unit (by norm_num) (fun _ => 0) le_rfl) (by decide) hfirst hrefused
    rintro ⟨data', hok', -, -, hunchanged⟩
    cases hok.symm.trans hok'
    -- the first sample would have been kept, but the first subband has been written
    have hkept := hunchanged (fun hall => hrefused.2 (accepted_of_fits (hall 1 (by decide))).1) 0
      Nat.one_pos
    rw [hafter.added Nat.one_pos 0 Nat.one_pos] at hkept
    have hzero : unitCalculator.wrappedEnd (unitParameters 5) 0 = 0 := by
      rw [wrappedEnd, attackEnd_unit rfl, Nat.zero_mod]
    rw [response, Finset.sum_range_one, hzero] at hkept
    norm_num [envelopeUntil, coeff, levels_unit, unitCalculator, Efl.BasicMatrix.get] at hkept

/-- A buffer with one sample after the filter. -/
theorem complete_iff_unit :
    unitCalculator.Complete (fun _ => 1) 0 (unitParameters 0) ⟨0, fun _ => 1⟩ 2 0 ↔
      unitCalculator.CompleteWhen (fun _ => 1) 0 (unitParameters 0) ⟨0, fun _ => 1⟩ 2 :=
  complete_iff _ (admissible_unit le_rfl _ (by decide))

end LateReverbFilterCalculator

end Visr
