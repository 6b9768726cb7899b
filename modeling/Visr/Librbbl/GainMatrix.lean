import Mathlib.Algebra.BigOperators.Group.Finset.Basic
import Visr.Libefl.VectorRamp

/-!
# Gain matrices

A matrix of gains is applied to audio signals.  After an update, each gain leads from its
previous to its next value along a ramp that is computed in advance.

## Main results

* `GainFader.gain_eq` — the gain of a sample, if the ramp takes a whole number of blocks.
* `GainMatrix.process_eq` — the audio signals of a block.
-/

namespace Visr

variable {K : Type} [Field K]

/-! ### Fading a gain -/

/-- The ramp of the gains.  It goes on with ones. -/
structure GainFader (K : Type) where
  blockSize : ℕ
  interpolationSamples : ℕ
  interpolationRamp : ℕ → K
  blockSize_pos : 0 < blockSize

namespace GainFader

/-- The number of blocks that a transition takes, rounded up. -/
def interpolationPeriods (f : GainFader K) : ℕ :=
  (f.interpolationSamples + f.blockSize - 1) / f.blockSize

/-- Fills the array of the ramp, of `(interpolationPeriods + 1) * blockSize` elements. -/
def setupRamp (K : Type) [Field K] (interpolationPeriods blockSize interpolationSteps
    alignment : ℕ) : Except Exception (ℕ → K) := do
  let failed : Exception := .logicError "GainMatrix: Creation of interpolation ramp failed"
  let ramp : ℕ → K ←
    if interpolationPeriods > 0 then
      match vectorRamp ⟨0, fun _ => 0⟩ interpolationSteps 0 1 false true alignment with
      | .error _ => .error failed
      | .ok ramp => .ok ramp
    else .ok fun _ => 0
  let rest ←
    match vectorFill 1 (Pointer.offset ⟨0, ramp⟩ interpolationSteps)
        ((interpolationPeriods + 1) * blockSize - interpolationSteps) 0 with
    | .error _ => .error failed
    | .ok rest => .ok rest
  pure fun idx => if idx < interpolationSteps then ramp idx else rest (idx - interpolationSteps)

/-- The constructor.  An alignment of zero is replaced by one. -/
def create (blockSize : ℕ) (hblock : 0 < blockSize) (interpolationSteps alignment : ℕ) :
    Except Exception (GainFader K) := do
  let alignmentElements := if alignment = 0 then 1 else alignment
  if alignmentIsPowerOfTwo alignmentElements = false then
    throw (.invalidArgument "AlignedArray: alignment values must be integer powers of 2")
  let interpolationRamp ← setupRamp K ((interpolationSteps + blockSize - 1) / blockSize) blockSize
    interpolationSteps alignmentElements
  pure
    { blockSize := blockSize
      interpolationSamples := interpolationSteps
      interpolationRamp := interpolationRamp
      blockSize_pos := hblock }

/-- The part of the ramp for a block. -/
def rampOfBlock (f : GainFader K) (blockIndex : ℕ) : ℕ → K := fun idx =>
  f.interpolationRamp (min blockIndex f.interpolationPeriods * f.blockSize + idx)

def scale (f : GainFader K) (input output : ℕ → K) (startGain endGain : K) (blockIndex : ℕ) :
    ℕ → K :=
  vectorRampScaling input (f.rampOfBlock blockIndex) output startGain (endGain - startGain)
    f.blockSize false

def scaleAndAccumulate (f : GainFader K) (input outputAcc : ℕ → K) (startGain endGain : K)
    (blockIndex : ℕ) : ℕ → K :=
  vectorRampScaling input (f.rampOfBlock blockIndex) outputAcc startGain (endGain - startGain)
    f.blockSize true

/-- The gain for a sample of a block. -/
def gain (f : GainFader K) (startGain endGain : K) (blockIndex idx : ℕ) : K :=
  startGain + (endGain - startGain) * f.rampOfBlock blockIndex idx

theorem scale_of_lt (f : GainFader K) (input output : ℕ → K) (startGain endGain : K)
    (blockIndex : ℕ) {idx : ℕ} (h : idx < f.blockSize) :
    f.scale input output startGain endGain blockIndex idx =
      f.gain startGain endGain blockIndex idx * input idx := by
  simp [scale, vectorRampScaling, gain, h]

theorem scaleAndAccumulate_of_lt (f : GainFader K) (input outputAcc : ℕ → K)
    (startGain endGain : K) (blockIndex : ℕ) {idx : ℕ} (h : idx < f.blockSize) :
    f.scaleAndAccumulate input outputAcc startGain endGain blockIndex idx =
      outputAcc idx + f.gain startGain endGain blockIndex idx * input idx := by
  simp [scaleAndAccumulate, vectorRampScaling, gain, h]

/-- The ramp, provided there is a block for it. -/
theorem setupRamp_eq [CharZero K] {interpolationPeriods blockSize interpolationSteps alignment : ℕ}
    (haligned : checkAlignment 0 alignment = true)
    (hperiods : interpolationSteps ≤ interpolationPeriods * blockSize) :
    ∃ ramp, setupRamp K interpolationPeriods blockSize interpolationSteps alignment = .ok ramp ∧
      ∀ idx < (interpolationPeriods + 1) * blockSize, ramp idx =
        if idx < interpolationSteps then ((idx + 1 : ℕ) : K) / interpolationSteps else 1 := by
  obtain ⟨line, hline, hvalue⟩ :=
    vectorRamp_between ⟨0, fun _ => (0 : K)⟩ haligned interpolationSteps 0 1
  have hones : ∀ (ramp : ℕ → K) (idx : ℕ), ¬idx < interpolationSteps →
      idx < (interpolationPeriods + 1) * blockSize →
      (if idx - interpolationSteps < (interpolationPeriods + 1) * blockSize - interpolationSteps
        then (1 : K) else ramp (interpolationSteps + (idx - interpolationSteps))) = 1 :=
    fun ramp idx hge hidx => if_pos (by omega)
  unfold setupRamp
  by_cases hzero : interpolationPeriods > 0
  · simp only [if_pos hzero, hline]
    refine ⟨_, rfl, fun idx hidx => ?_⟩
    by_cases hlt : idx < interpolationSteps
    · simp only [if_pos hlt, hvalue idx hlt]
      simp [between]
    · simp only [if_neg hlt]
      exact hones line idx hlt hidx
  · -- no ramp
    obtain rfl : interpolationPeriods = 0 := by omega
    obtain rfl : interpolationSteps = 0 := by omega
    simp only [gt_iff_lt, Nat.lt_irrefl, if_false]
    exact ⟨_, rfl, fun idx hidx => hones (fun _ => 0) idx (Nat.not_lt_zero idx) hidx⟩

theorem le_periods_mul {blockSize : ℕ} (hblock : 0 < blockSize) (interpolationSteps : ℕ) :
    interpolationSteps ≤ (interpolationSteps + blockSize - 1) / blockSize * blockSize := by
  have hdiv := Nat.div_add_mod (interpolationSteps + blockSize - 1) blockSize
  have hmod := Nat.mod_lt (interpolationSteps + blockSize - 1) hblock
  rw [Nat.mul_comm] at hdiv
  omega

/-- What the constructor leaves behind. -/
theorem create_spec [CharZero K] {blockSize interpolationSteps alignment : ℕ}
    {hblock : 0 < blockSize} {f : GainFader K}
    (h : create blockSize hblock interpolationSteps alignment = .ok f) :
    f.blockSize = blockSize ∧ f.interpolationSamples = interpolationSteps ∧
      ∀ idx < (f.interpolationPeriods + 1) * blockSize, f.interpolationRamp idx =
        if idx < interpolationSteps then ((idx + 1 : ℕ) : K) / interpolationSteps else 1 := by
  unfold create at h
  generalize (if alignment = 0 then 1 else alignment) = alignmentElements at h
  dsimp only at h
  split at h
  · cases h
  next hpower =>
    have haligned : checkAlignment 0 alignmentElements = true :=
      checkAlignment_of_dvd (.inr (by simpa using hpower)) fun _ => Nat.dvd_zero _
    obtain ⟨ramp, hramp, hvalue⟩ :=
      setupRamp_eq (K := K) haligned (le_periods_mul hblock interpolationSteps)
    obtain ⟨ramp', hramp', h⟩ := exists_of_bind_ok h
    obtain rfl := Except.ok.inj (hramp'.symm.trans hramp)
    obtain rfl := Except.ok.inj h
    exact ⟨rfl, rfl, hvalue⟩

/-- After the last sample of the transition, the gain is its target. -/
theorem gain_of_le [CharZero K] {blockSize interpolationSteps alignment : ℕ}
    {hblock : 0 < blockSize} {f : GainFader K}
    (h : create blockSize hblock interpolationSteps alignment = .ok f) (startGain endGain : K)
    {blocks idx : ℕ} (hidx : idx < blockSize)
    (hover : interpolationSteps ≤ blocks * blockSize + idx + 1) :
    f.gain startGain endGain (min blocks f.interpolationPeriods) idx = endGain := by
  obtain ⟨hsize, hsamples, hramp⟩ := create_spec h
  have hall : interpolationSteps ≤ f.interpolationPeriods * blockSize := by
    have hle := le_periods_mul hblock interpolationSteps
    rwa [← hsize, ← hsamples] at hle ⊢
  have hposition : min blocks f.interpolationPeriods * blockSize + idx <
      (f.interpolationPeriods + 1) * blockSize := by
    have hmin := Nat.mul_le_mul_right blockSize (Nat.min_le_right blocks f.interpolationPeriods)
    rw [Nat.succ_mul]
    omega
  have hlast : interpolationSteps ≤ min blocks f.interpolationPeriods * blockSize + idx + 1 := by
    rcases Nat.le_total blocks f.interpolationPeriods with hle | hle
    · rwa [Nat.min_eq_left hle]
    · rw [Nat.min_eq_right hle]
      omega
  unfold gain rampOfBlock
  rw [hsize, min_assoc, min_self, hramp _ hposition]
  split
  next hlt =>
    -- the last sample of the ramp
    have heq : min blocks f.interpolationPeriods * blockSize + idx + 1 = interpolationSteps := by
      omega
    rw [heq, div_self (Nat.cast_ne_zero.mpr (by omega))]
    ring
  · ring

theorem exists_create [CharZero K] (blockSize : ℕ) (hblock : 0 < blockSize)
    (interpolationSteps : ℕ) {alignment : ℕ}
    (hpower : alignmentIsPowerOfTwo (if alignment = 0 then 1 else alignment) = true) :
    ∃ f : GainFader K, create blockSize hblock interpolationSteps alignment = .ok f := by
  unfold create
  generalize (if alignment = 0 then 1 else alignment) = alignmentElements at hpower ⊢
  have haligned : checkAlignment 0 alignmentElements = true :=
    checkAlignment_of_dvd (.inr hpower) fun _ => Nat.dvd_zero _
  obtain ⟨ramp, hramp, -⟩ :=
    setupRamp_eq (K := K) haligned (le_periods_mul hblock interpolationSteps)
  dsimp only
  rw [if_neg (by simp [hpower]), hramp]
  exact ⟨_, rfl⟩

/-- A ramp of a whole number of blocks. -/
theorem create_periods [CharZero K] {periods blockSize alignment : ℕ} {hblock : 0 < blockSize}
    {f : GainFader K} (h : create blockSize hblock (periods * blockSize) alignment = .ok f) :
    f.blockSize = blockSize ∧ f.interpolationSamples = periods * blockSize ∧
      f.interpolationPeriods = periods := by
  obtain ⟨hsize, hsamples, -⟩ := create_spec h
  refine ⟨hsize, hsamples, ?_⟩
  unfold interpolationPeriods
  rw [hsize, hsamples, Nat.add_sub_assoc hblock, Nat.mul_comm, Nat.mul_add_div hblock,
    Nat.div_eq_of_lt (by omega), Nat.add_zero]

/-- **The gain of a sample**, for a transition that takes `periods` blocks.  After `blocks`
blocks, the fader is at the start of a block of the way from the first to the last gain. -/
theorem gain_eq [CharZero K] {periods blockSize alignment : ℕ} {hblock : 0 < blockSize}
    {f : GainFader K} (hperiods : 0 < periods)
    (h : create blockSize hblock (periods * blockSize) alignment = .ok f) (startGain endGain : K)
    (elapsed blocks : ℕ) {idx : ℕ} (hidx : idx < blockSize) :
    f.gain startGain endGain (min blocks periods) idx =
      (Glide.mk startGain endGain elapsed).value (periods * blockSize)
        (blocks * blockSize + idx + 1) := by
  obtain ⟨hsize, -, hcount⟩ := create_periods h
  have hramp := (create_spec h).2.2
  have hposition : min blocks periods * blockSize + idx < (periods + 1) * blockSize := by
    have hmin : min blocks periods * blockSize ≤ periods * blockSize :=
      Nat.mul_le_mul_right blockSize (Nat.min_le_right blocks periods)
    rw [Nat.succ_mul]
    omega
  unfold gain rampOfBlock
  rw [hcount, hsize, min_assoc, min_self, hramp _ (by rw [hcount]; exact hposition)]
  by_cases hlt : blocks < periods
  · -- in the transition
    have hnext : (blocks + 1) * blockSize ≤ periods * blockSize := Nat.mul_le_mul_right _ hlt
    rw [Nat.succ_mul] at hnext
    rw [Nat.min_eq_left hlt.le, if_pos (by omega),
      Glide.value_line (Nat.mul_pos hperiods hblock) (by omega)]
    unfold between
    ring
  · -- after its end
    have hall : periods * blockSize ≤ blocks * blockSize :=
      Nat.mul_le_mul_right _ (Nat.not_lt.mp hlt)
    rw [Nat.min_eq_right (Nat.not_lt.mp hlt), if_neg (by omega), Glide.value_of_le (by omega)]
    ring

end GainFader

/-! ### The matrix -/

/-- A gain matrix.  A row of the gains is an output, a column an input. -/
structure GainMatrix (K : Type) where
  numberOfInputs : ℕ
  numberOfOutputs : ℕ
  previousGains : ℕ → ℕ → K
  nextGains : ℕ → ℕ → K
  alignment : ℕ
  interpolationCounter : ℕ
  fader : GainFader K

/-- The vectors behind the pointers of the outputs, whose alignment is guaranteed. -/
structure OutputVectors (K : Type) (alignment : ℕ) where
  channel : ℕ → Pointer K
  aligned : ∀ channelIdx, checkAlignment (channel channelIdx).address alignment = true

namespace GainMatrix

/-- The constructor for a common initial value. -/
def create (numberOfInputs numberOfOutputs blockLength : ℕ) (hblock : 0 < blockLength)
    (interpolationSteps : ℕ) (initialValue : K) (alignment : ℕ) :
    Except Exception (GainMatrix K) := do
  let fader ← GainFader.create blockLength hblock interpolationSteps alignment
  pure
    { numberOfInputs := numberOfInputs
      numberOfOutputs := numberOfOutputs
      previousGains := fun _ _ => initialValue
      nextGains := fun _ _ => initialValue
      alignment := alignment
      interpolationCounter := 0
      fader := fader }

/-- The constructor for a matrix of initial values. -/
def createWithMatrix (numberOfInputs numberOfOutputs blockLength : ℕ) (hblock : 0 < blockLength)
    (interpolationSteps : ℕ) (initialMatrix : ℕ → ℕ → K) (numberOfRows numberOfColumns : ℕ)
    (alignment : ℕ) : Except Exception (GainMatrix K) := do
  let matrix ← create numberOfInputs numberOfOutputs blockLength hblock interpolationSteps 0
    alignment
  if numberOfRows ≠ numberOfOutputs ∨ numberOfColumns ≠ numberOfInputs then
    throw (.invalidArgument ("GainMatrix: The size of the passed initial matrix is " ++
      "incompatible with the dimension of the gain matrix."))
  pure { matrix with previousGains := initialMatrix, nextGains := initialMatrix }

/-- The audio signals of a block, without advancing the transition. -/
def processAudio (m : GainMatrix K) (input : ℕ → ℕ → K) (output : ℕ → Pointer K) :
    Except Exception (ℕ → ℕ → K) :=
  if m.numberOfInputs = 0 then
    (List.range m.numberOfOutputs).foldlM
      (fun result outputIdx => do
        let cleared ← throwOnError "GainMatrix::process(): Clearing of output vector failed."
          (vectorZero (output outputIdx) m.fader.blockSize m.alignment)
        pure (Function.update result outputIdx cleared))
      fun outputIdx => (output outputIdx).data
  else
    .ok fun outputIdx =>
      if outputIdx < m.numberOfOutputs then
        (List.range' 1 (m.numberOfInputs - 1)).foldl
          (fun outVector inputIdx => m.fader.scaleAndAccumulate (input inputIdx) outVector
            (m.previousGains outputIdx inputIdx) (m.nextGains outputIdx inputIdx)
            m.interpolationCounter)
          (m.fader.scale (input 0) (output outputIdx).data (m.previousGains outputIdx 0)
            (m.nextGains outputIdx 0) m.interpolationCounter)
      else (output outputIdx).data

/-- Advances the counter of the blocks of a transition. -/
def advance (m : GainMatrix K) : GainMatrix K :=
  if m.interpolationCounter < m.fader.interpolationPeriods then
    { m with interpolationCounter := m.interpolationCounter + 1 }
  else m

def process (m : GainMatrix K) (input : ℕ → ℕ → K) (output : ℕ → Pointer K) :
    Except Exception (GainMatrix K × (ℕ → ℕ → K)) := do
  let result ← m.processAudio input output
  pure (m.advance, result)

section Updates

variable [LinearOrder K]

/-- Replaces the previous gains by those currently reached, and the next ones by new values.
`eps` is the epsilon of the type of the samples. -/
def setGainsInternal (eps : K) (m : GainMatrix K) (newGains : ℕ → ℕ → K) : GainMatrix K :=
  let previousGains : ℕ → ℕ → K :=
    if m.interpolationCounter ≥ m.fader.interpolationPeriods then m.nextGains
    else
      let ratio : K := min 1 (((m.interpolationCounter * m.fader.blockSize : ℕ) : K) /
        (m.fader.interpolationSamples : K))
      fun outputIdx inputIdx =>
        let newScale := ratio * (m.nextGains outputIdx inputIdx - m.previousGains outputIdx inputIdx)
        if |newScale| ≥ eps then m.previousGains outputIdx inputIdx + newScale
        else m.nextGains outputIdx inputIdx
  { m with previousGains := previousGains, nextGains := newGains, interpolationCounter := 0 }

def setNewGains (eps : K) (m : GainMatrix K) (newGains : ℕ → ℕ → K)
    (numberOfRows numberOfColumns : ℕ) : Except Exception (GainMatrix K) :=
  if numberOfRows ≠ m.numberOfOutputs ∨ numberOfColumns ≠ m.numberOfInputs then
    .error (.invalidArgument
      "GainMatrix::setNewGains(): Dimension of new gain matrix does not match.")
  else .ok (m.setGainsInternal eps newGains)

/-- Sets new gains before the block. -/
def processWithGains (eps : K) (m : GainMatrix K) (input : ℕ → ℕ → K) (output : ℕ → Pointer K)
    (newGains : ℕ → ℕ → K) (numberOfRows numberOfColumns : ℕ) :
    Except Exception (GainMatrix K × (ℕ → ℕ → K)) :=
  if numberOfRows ≠ m.numberOfOutputs ∨ numberOfColumns ≠ m.numberOfInputs then
    .error (.invalidArgument
      "GainMatrix::process(): Dimension of new gain matrix does not match.")
  else (m.setGainsInternal eps newGains).process input output

end Updates

/-- The gain of an element of the matrix for a sample of the next block. -/
def gain (m : GainMatrix K) (outputIdx inputIdx idx : ℕ) : K :=
  m.fader.gain (m.previousGains outputIdx inputIdx) (m.nextGains outputIdx inputIdx)
    m.interpolationCounter idx

/-- The accumulated contributions of some inputs. -/
theorem foldl_scaleAndAccumulate (f : GainFader K) (input : ℕ → ℕ → K) (startGain endGain : ℕ → K)
    (blockIndex : ℕ) {idx : ℕ} (h : idx < f.blockSize) (inputs : List ℕ) (outVector : ℕ → K) :
    inputs.foldl (fun outVector inputIdx => f.scaleAndAccumulate (input inputIdx) outVector
        (startGain inputIdx) (endGain inputIdx) blockIndex) outVector idx =
      outVector idx + (inputs.map fun inputIdx =>
        f.gain (startGain inputIdx) (endGain inputIdx) blockIndex idx * input inputIdx idx).sum := by
  induction inputs generalizing outVector with
  | nil => simp
  | cons inputIdx inputs ih =>
    rw [List.foldl_cons, ih, GainFader.scaleAndAccumulate_of_lt _ _ _ _ _ _ h, List.map_cons,
      List.sum_cons, add_assoc]

/-- Without inputs, the outputs are cleared. -/
theorem foldlM_cleared {alignment blockSize : ℕ} (output : OutputVectors K alignment)
    (outputs : List ℕ) (result : ℕ → ℕ → K) :
    ∃ result', outputs.foldlM (fun result outputIdx => do
        let cleared ← throwOnError "GainMatrix::process(): Clearing of output vector failed."
          (vectorZero (output.channel outputIdx) blockSize alignment)
        pure (Function.update result outputIdx cleared)) result = .ok result' ∧
      ∀ outputIdx idx, idx < blockSize →
        (outputIdx ∈ outputs ∨ result outputIdx idx = 0) → result' outputIdx idx = 0 := by
  induction outputs generalizing result with
  | nil => exact ⟨result, rfl, fun outputIdx idx _ h => h.resolve_left List.not_mem_nil⟩
  | cons first outputs ih =>
    obtain ⟨result', hrest, hcleared⟩ := ih (Function.update result first fun idx =>
      if idx < blockSize then 0 else (output.channel first).data idx)
    refine ⟨result', ?_, fun outputIdx idx hidx h => hcleared outputIdx idx hidx ?_⟩
    · rw [List.foldlM_cons, vectorZero, vectorFill, output.aligned first]
      exact hrest
    · by_cases heq : outputIdx = first
      · right
        simp [heq, hidx]
      · rw [Function.update_of_ne heq]
        exact h.imp_left fun hmem => (List.mem_cons.mp hmem).resolve_left heq

/-- **The audio signals of a block** are those of a matrix product. -/
theorem process_eq {m : GainMatrix K} (input : ℕ → ℕ → K)
    (output : OutputVectors K m.alignment) :
    ∃ result, m.process input output.channel = .ok (m.advance, result) ∧
      ∀ outputIdx < m.numberOfOutputs, ∀ idx < m.fader.blockSize, result outputIdx idx =
        ∑ inputIdx ∈ Finset.range m.numberOfInputs,
          m.gain outputIdx inputIdx idx * input inputIdx idx := by
  unfold process processAudio
  -- without inputs, the outputs are cleared; otherwise the first input replaces what they hold
  by_cases hinputs : m.numberOfInputs = 0
  · rw [if_pos hinputs, hinputs]
    obtain ⟨result, hresult, hcleared⟩ := foldlM_cleared output (List.range m.numberOfOutputs)
      (fun outputIdx => (output.channel outputIdx).data)
    refine ⟨result, by rw [hresult]; rfl, fun outputIdx houtput idx hidx => ?_⟩
    rw [hcleared outputIdx idx hidx (.inl (List.mem_range.mpr houtput)), Finset.range_zero,
      Finset.sum_empty]
  · rw [if_neg hinputs]
    refine ⟨_, rfl, fun outputIdx houtput idx hidx => ?_⟩
    obtain ⟨rest, hrest⟩ := Nat.exists_eq_succ_of_ne_zero hinputs
    have hsum : ∀ h : ℕ → K, ((List.range' 1 rest).map h).sum =
        ∑ inputIdx ∈ Finset.range rest, h (inputIdx + 1) := by
      intro h
      rw [List.range'_eq_map_range, List.map_map]
      simp only [Function.comp_def, Nat.add_comm 1]
      rfl
    rw [if_pos houtput, foldl_scaleAndAccumulate m.fader input (m.previousGains outputIdx)
      (m.nextGains outputIdx) m.interpolationCounter hidx, GainFader.scale_of_lt _ _ _ _ _ _ hidx,
      hrest, Nat.succ_sub_one, hsum, Finset.sum_range_succ', add_comm]
    rfl

end GainMatrix

end Visr
