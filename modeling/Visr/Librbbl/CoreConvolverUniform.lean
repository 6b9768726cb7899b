import Visr.Libefl.VectorFunctions
import Visr.Librbbl.CircularBuffer
import Visr.Librbbl.FftWrapper

/-!
# The core of the partitioned convolution

The filters are cut into partitions of the block length and held as spectra, and so are
the latest blocks of the inputs, in a delay line that advances by moving its origin.

## Main results

* `setImpulseResponse_holds`, `initFilters_holds` — what loading does to the filters.
* `processInputs_holds` — a block of input advances the signals.
* `processFilter_eq` — the sum over the partitions, added to the result.
* `processFilter_convolves` — a block of the convolution with a transformed filter.
-/

namespace Visr

open Dft

/-- The ways in which an operation ends without a result: an exception, or a division by
zero in an index computation or an access outside an array, which the program does not guard
against. -/
inductive Fault
  | thrown (e : Exception)
  | divisionByZero
  | outOfRange
  deriving DecidableEq, Repr

/-- A matrix whose rows are aligned. -/
structure BasicMatrix (α : Type) where
  numberOfRows : ℕ
  numberOfColumns : ℕ
  alignmentElements : ℕ
  address : ℕ
  data : ℕ → ℕ → α

/-- The address of a row follows from the stride of the matrix. -/
def BasicMatrix.row {α : Type} (m : BasicMatrix α) (rowIdx : ℕ) : Pointer α where
  address := m.address + rowIdx * nextAlignedSize m.numberOfColumns m.alignmentElements
  data := m.data rowIdx

/-- The arguments of a call that loads an impulse response. -/
structure ImpulseResponse (R : Type) where
  ir : Pointer R
  filterLength : ℕ
  alignment : ℕ

namespace ImpulseResponse

variable {R : Type} [Zero R]

/-- The filter that has not been set. -/
def none : ImpulseResponse R := ⟨⟨0, fun _ => 0⟩, 0, 0⟩

def coefficient (r : ImpulseResponse R) (k : ℕ) : R :=
  if k < r.filterLength then r.ir.data k else 0

theorem coefficient_of_le (r : ImpulseResponse R) {k : ℕ} (h : r.filterLength ≤ k) :
    r.coefficient k = 0 := if_neg (Nat.not_lt.mpr h)

@[simp] theorem coefficient_none (k : ℕ) : (none : ImpulseResponse R).coefficient k = 0 := by
  simp [coefficient, none]

end ImpulseResponse

def calculateNumberOfPartitions (filterLength blockLength : ℕ) : ℕ :=
  (filterLength + blockLength - 1) / blockLength

def calculateDftSize (blockLength : ℕ) : ℕ := 2 * blockLength

def calculateDftRepresentationSize (blockLength : ℕ) : ℕ := calculateDftSize blockLength / 2 + 1

def calculateDftRepresentationSizePadded (blockLength alignment : ℕ) : ℕ :=
  nextAlignedSize (calculateDftRepresentationSize blockLength) alignment

/-- The alignment that an array takes on for a requested one. -/
def arrayAlignment (alignmentElements : ℕ) : ℕ :=
  if alignmentElements = 0 then 1 else alignmentElements

/-- The members that are constant after construction. -/
structure ConvolverParameters (R C : Type) [Field R] [CommRing C] [Algebra R C] where
  alignment : ℕ
  numberOfInputs : ℕ
  numberOfOutputs : ℕ
  blockLength : ℕ
  maxFilterLength : ℕ
  maxNumberOfFilterEntries : ℕ
  fftRepresentation : FftWrapper R C (calculateDftSize blockLength)
  blockLength_pos : 0 < blockLength

variable {R C : Type} [Field R] [CommRing C] [Algebra R C]

namespace ConvolverParameters

variable (p : ConvolverParameters R C)

def complexAlignment : ℕ := p.alignment / 2

def numberOfFilterPartitions : ℕ := calculateNumberOfPartitions p.maxFilterLength p.blockLength

def dftSize : ℕ := calculateDftSize p.blockLength

def dftRepresentationSize : ℕ := calculateDftRepresentationSize p.blockLength

def dftRepresentationSizePadded : ℕ :=
  calculateDftRepresentationSizePadded p.blockLength p.complexAlignment

/-- Compensates for the scaling of the transforms. -/
def calculateFilterScalingFactor : R :=
  let fwdConst := p.fftRepresentation.forwardScalingFactor
  let invConst := p.fftRepresentation.inverseScalingFactor
  1 / (fwdConst * invConst * (p.dftSize : R))

/-- The check made by the arrays of the two sample types. -/
def AlignmentValid : Prop :=
  alignmentIsPowerOfTwo (arrayAlignment p.alignment) = true ∧
    alignmentIsPowerOfTwo (arrayAlignment p.complexAlignment) = true

instance : Decidable p.AlignmentValid := inferInstanceAs (Decidable (_ ∧ _))

/-- The transform buffer for one partition of an impulse response. -/
def partitionBuffer (ir : Pointer R) (irLength alignment partitionIdx : ℕ) : ℕ → R :=
  let startIdx := partitionIdx * p.blockLength
  let endIdx := min ((partitionIdx + 1) * p.blockLength) irLength
  if endIdx > startIdx then
    match vectorMultiplyConstant p.calculateFilterScalingFactor (ir.offset startIdx)
        ⟨0, fun _ => 0⟩ (endIdx - startIdx) (min p.alignment alignment) with
    | .ok timeDomainTransformBuffer => timeDomainTransformBuffer
    -- an exception is constructed here, but not thrown: the buffer remains zero
    | .error _ => fun _ => 0
  else fun _ => 0

def transformImpulseResponse (ir : Pointer R) (irLength : ℕ) (result : ℕ → C)
    (alignment : ℕ) : Except Exception (ℕ → C) :=
  if irLength > p.maxFilterLength then
    .error (.invalidArgument ("CoreConvolverUniform::transformImpulseResponse(): impulse " ++
      "response length exceeds maximum admissible values."))
  else
    .ok ((List.range p.numberOfFilterPartitions).foldl
      (fun result partitionIdx =>
        overwrite result (partitionIdx * p.dftRepresentationSizePadded) p.dftRepresentationSize
          (p.fftRepresentation.forwardTransform
            (p.partitionBuffer ir irLength alignment partitionIdx)))
      result)

end ConvolverParameters

/-- The state of the convolver.  The transform buffer and the accumulator are left out:
they are filled anew by every function that reads them. -/
structure CoreConvolverUniform (p : ConvolverParameters R C) where
  inputBuffers : CircularBuffer R
  inputFDL : ℕ → ℕ → C
  fdlCycleOffset : ℕ
  filterPartitionsFrequencyDomain : ℕ → ℕ → C
  alignment_valid : p.AlignmentValid

theorem ConvolverParameters.dftSize_pos (p : ConvolverParameters R C) : 0 < p.dftSize :=
  Nat.mul_pos (by omega) p.blockLength_pos

namespace CoreConvolverUniform

variable {p : ConvolverParameters R C}

def clearFilters (c : CoreConvolverUniform p) : CoreConvolverUniform p :=
  { c with filterPartitionsFrequencyDomain := fun _ _ => 0 }

def setImpulseResponse (c : CoreConvolverUniform p) (r : ImpulseResponse R) (filterIdx : ℕ) :
    Except Exception (CoreConvolverUniform p) :=
  if filterIdx ≥ p.maxNumberOfFilterEntries then
    .error (.invalidArgument
      "CoreConvolverUniform::setImpulseResponse(): filter index exceeds number of filters")
  else do
    let row ← p.transformImpulseResponse r.ir r.filterLength
      (c.filterPartitionsFrequencyDomain filterIdx) (min p.alignment r.alignment)
    pure { c with
      filterPartitionsFrequencyDomain :=
        Function.update c.filterPartitionsFrequencyDomain filterIdx row }

/-- Copies a filter that has been transformed before. -/
def setFilter (c : CoreConvolverUniform p) (transformedFilter : Pointer C)
    (filterIdx alignment : ℕ) : Except Exception (CoreConvolverUniform p) :=
  if filterIdx ≥ p.maxNumberOfFilterEntries then
    .error (.invalidArgument
      "CoreConvolverUniform::setFilter(): filter index exceeds number of filters")
  else
    match vectorCopy transformedFilter ⟨0, c.filterPartitionsFrequencyDomain filterIdx⟩
        (p.dftRepresentationSizePadded * p.numberOfFilterPartitions)
        (min alignment p.complexAlignment) with
    | .ok row => .ok { c with
        filterPartitionsFrequencyDomain :=
          Function.update c.filterPartitionsFrequencyDomain filterIdx row }
    -- the error code is not looked at
    | .error _ => .ok c

/-- The impulse response in a row of a matrix of filters. -/
def rowResponse (newFilters : BasicMatrix R) (filterIdx : ℕ) : ImpulseResponse R where
  ir := newFilters.row filterIdx
  filterLength := newFilters.numberOfColumns
  alignment := newFilters.alignmentElements

def initFilters (c : CoreConvolverUniform p) (newFilters : BasicMatrix R) :
    Except Exception (CoreConvolverUniform p) :=
  let cleared := c.clearFilters
  if newFilters.numberOfRows > p.maxNumberOfFilterEntries then
    .error (.invalidArgument ("CoreConvolverUniform::initFilters( ): The initializer exceeds " ++
      "the maximum number of filter entries."))
  else if newFilters.numberOfColumns > p.maxFilterLength then
    .error (.invalidArgument ("CoreConvolverUniform::initFilters( ): The initializer exceeds " ++
      "the maximum filter length."))
  else do
    let loaded ← (List.range newFilters.numberOfRows).foldlM
      (fun c filterIdx => c.setImpulseResponse (rowResponse newFilters filterIdx) filterIdx)
      cleared
    pure { loaded with
      filterPartitionsFrequencyDomain := fun filterIdx =>
        if newFilters.numberOfRows ≤ filterIdx then fun _ => 0
        else loaded.filterPartitionsFrequencyDomain filterIdx }

/-- The constructor. -/
def create (p : ConvolverParameters R C) (initialFilters : BasicMatrix R) :
    Except Exception (CoreConvolverUniform p) :=
  if h : p.AlignmentValid then
    initFilters
      { inputBuffers := CircularBuffer.create p.numberOfInputs p.dftSize p.alignment
          p.dftSize_pos
        inputFDL := fun _ _ => 0
        fdlCycleOffset := 0
        filterPartitionsFrequencyDomain := fun _ _ => 0
        alignment_valid := h }
      initialFilters
  else
    .error (.invalidArgument "AlignedArray: alignment values must be integer powers of 2")

/-- Moves the origin of the delay line back by one block. -/
def advanceFDL (c : CoreConvolverUniform p) : Except Fault (CoreConvolverUniform p) :=
  if p.numberOfFilterPartitions = 0 then .error .divisionByZero
  else .ok { c with
    fdlCycleOffset := (c.fdlCycleOffset + p.numberOfFilterPartitions - 1) %
      p.numberOfFilterPartitions }

/-- The position of a block within the rows of the delay line. -/
def fdlColumn (c : CoreConvolverUniform p) (blockIdx : ℕ) : ℕ :=
  (c.fdlCycleOffset + blockIdx) % p.numberOfFilterPartitions * p.dftRepresentationSizePadded

/-- The rows of the matrices start at multiples of the alignment, from which the addresses
are counted. -/
def getFdlBlock (c : CoreConvolverUniform p) (inputIdx blockIdx : ℕ) : Pointer C :=
  Pointer.offset ⟨0, c.inputFDL inputIdx⟩ (c.fdlColumn blockIdx)

def getFdFilterPartition (c : CoreConvolverUniform p) (filterIdx blockIdx : ℕ) : Pointer C :=
  Pointer.offset ⟨0, c.filterPartitionsFrequencyDomain filterIdx⟩
    (blockIdx * p.dftRepresentationSizePadded)

def processInputs (c : CoreConvolverUniform p) (input : ℕ → ℕ → R) :
    Except Fault (CoreConvolverUniform p) :=
  match c.inputBuffers.write input p.numberOfInputs p.blockLength with
  | .error e => .error (.thrown e)
  | .ok inputBuffers => do
    let advanced ← { c with inputBuffers := inputBuffers }.advanceFDL
    pure { advanced with
      inputFDL := fun chIdx =>
        if chIdx < p.numberOfInputs then
          overwrite (advanced.inputFDL chIdx) (advanced.fdlColumn 0) p.dftRepresentationSize
            (p.fftRepresentation.forwardTransform (advanced.inputBuffers.readAt chIdx p.dftSize))
        else advanced.inputFDL chIdx }

/-- A failed vector operation. -/
def blockConvolutionFailed : Fault :=
  .thrown (.runtimeError
    "CoreConvolverUniform::processOutput(): Frequency-domain block convolution failed.")

/-- The accumulator after the multiplication of all blocks. -/
def blockConvolution (c : CoreConvolverUniform p) (inputIndex filterIndex : ℕ) :
    Except ErrorCode (ℕ → C) := do
  let accumulator ← vectorMultiply (c.getFdlBlock inputIndex 0)
    (c.getFdFilterPartition filterIndex 0) ⟨0, fun _ => 0⟩ p.dftRepresentationSizePadded
    p.complexAlignment
  (List.range' 1 (p.numberOfFilterPartitions - 1)).foldlM
    (fun accumulator blockIndex =>
      vectorMultiplyAddInplace (c.getFdlBlock inputIndex blockIndex)
        (c.getFdFilterPartition filterIndex blockIndex) ⟨0, accumulator⟩
        p.dftRepresentationSizePadded p.complexAlignment)
    accumulator

def processFilter (c : CoreConvolverUniform p) (inputIndex filterIndex : ℕ) (gain : R)
    (result : ℕ → C) (addFlag : Bool) : Except Fault (ℕ → C) :=
  let scaled := do
    let accumulator ← c.blockConvolution inputIndex filterIndex
    if addFlag then
      vectorMultiplyConstantAddInplace (algebraMap R C gain) ⟨0, accumulator⟩ ⟨0, result⟩
        p.dftRepresentationSizePadded p.complexAlignment
    else
      vectorMultiplyConstant (algebraMap R C gain) ⟨0, accumulator⟩ ⟨0, result⟩
        p.dftRepresentationSizePadded p.complexAlignment
  match scaled with
  | .error _ => .error blockConvolutionFailed
  | .ok result => .ok result

/-- The second half of the inverse transform; the first one is distorted by the
wrap-around of the circular convolution. -/
def transformOutput (p : ConvolverParameters R C) (fdBlock : ℕ → C) (n : ℕ) : R :=
  p.fftRepresentation.inverseTransform fdBlock (p.blockLength + n)

end CoreConvolverUniform

/-! ### Loading filters -/

namespace ConvolverParameters

variable (p : ConvolverParameters R C)

theorem dftRepresentationSize_eq : p.dftRepresentationSize = p.blockLength + 1 := by
  unfold dftRepresentationSize calculateDftRepresentationSize calculateDftSize
  omega

theorem dftRepresentationSize_le : p.dftRepresentationSize ≤ p.dftRepresentationSizePadded :=
  le_nextAlignedSize _ _

/-- The spectrum, without scaling, of a block of twice the block length. -/
def blockSpectrum (x : ℕ → R) (k : ℕ) : C :=
  spectrumOf C p.fftRepresentation.rootOfUnity p.dftSize x k

theorem forwardTransform_eq (x : ℕ → R) {k : ℕ} (hk : k ≤ p.blockLength) :
    p.fftRepresentation.forwardTransform x k =
      algebraMap R C p.fftRepresentation.forwardScalingFactor * p.blockSpectrum x k := by
  apply p.fftRepresentation.forward_exact
  unfold calculateDftSize
  omega

/-- Whether the call that loads an impulse response copies a partition.  It does not if the
start of the partition is not aligned as the caller and the convolver have promised. -/
def Loads (r : ImpulseResponse R) (partitionIdx : ℕ) : Prop :=
  checkAlignment (r.ir.address + partitionIdx * p.blockLength) (min p.alignment r.alignment) =
    true

instance (r : ImpulseResponse R) (partitionIdx : ℕ) : Decidable (p.Loads r partitionIdx) :=
  inferInstanceAs (Decidable (_ = _))

/-- The coefficients that reach the filter memory. -/
def effective (r : ImpulseResponse R) (k : ℕ) : R :=
  if p.Loads r (k / p.blockLength) then r.coefficient k else 0

theorem effective_of_le (r : ImpulseResponse R) {k : ℕ} (h : r.filterLength ≤ k) :
    p.effective r k = 0 := by
  unfold effective
  rw [r.coefficient_of_le h, ite_self]

@[simp] theorem effective_none (k : ℕ) : p.effective (.none : ImpulseResponse R) k = 0 :=
  p.effective_of_le _ (Nat.zero_le k)

/-- The coefficients of a partition reach the filter memory together. -/
theorem partition_effective (r : ImpulseResponse R) (q n : ℕ) :
    partition (p.effective r) p.blockLength q n =
      if p.Loads r q then partition r.coefficient p.blockLength q n else 0 := by
  unfold partition effective
  by_cases hn : n < p.blockLength
  · have hdiv : (q * p.blockLength + n) / p.blockLength = q := by
      rw [Nat.mul_comm, Nat.mul_add_div p.blockLength_pos, Nat.div_eq_of_lt hn, Nat.add_zero]
    rw [if_pos hn, if_pos hn, hdiv]
  · rw [if_neg hn, if_neg hn, ite_self]

theorem partitionBuffer_of_loads {r : ImpulseResponse R} {q : ℕ} (h : p.Loads r q) (n : ℕ) :
    p.partitionBuffer r.ir r.filterLength r.alignment q n =
      p.calculateFilterScalingFactor * partition r.coefficient p.blockLength q n := by
  have hcheck : checkAlignment (r.ir.address + q * p.blockLength)
      (min p.alignment r.alignment) = true := h
  have hsucc : (q + 1) * p.blockLength = q * p.blockLength + p.blockLength :=
    Nat.succ_mul q p.blockLength
  have hinside : n < p.blockLength ∧ q * p.blockLength + n < r.filterLength ↔
      n < min ((q + 1) * p.blockLength) r.filterLength - q * p.blockLength := by omega
  have hright : partition r.coefficient p.blockLength q n =
      if n < p.blockLength ∧ q * p.blockLength + n < r.filterLength
      then r.ir.data (q * p.blockLength + n) else 0 := by
    rw [partition, ImpulseResponse.coefficient, ite_and]
  simp only [partitionBuffer, vectorMultiplyConstant, Pointer.offset, hcheck,
    checkAlignment_zero hcheck, Bool.not_true, Bool.false_eq_true, if_false]
  rw [hright]
  by_cases hn : n < p.blockLength ∧ q * p.blockLength + n < r.filterLength
  · rw [if_pos (by omega), if_pos hn]
    exact if_pos (hinside.mp hn)
  · rw [if_neg hn, mul_zero]
    split
    · exact if_neg fun hlt => hn (hinside.mpr hlt)
    · rfl

theorem partitionBuffer_of_not_loads {r : ImpulseResponse R} {q : ℕ} (h : ¬p.Loads r q)
    (n : ℕ) : p.partitionBuffer r.ir r.filterLength r.alignment q n = 0 := by
  have hcheck : checkAlignment (r.ir.address + q * p.blockLength)
      (min p.alignment r.alignment) = false := Bool.eq_false_iff.mpr h
  simp only [partitionBuffer, vectorMultiplyConstant, Pointer.offset, hcheck, Bool.not_false,
    if_true, ite_self]

/-- The transform buffer of a partition holds its effective coefficients, scaled. -/
theorem partitionBuffer_eq (r : ImpulseResponse R) (q n : ℕ) :
    p.partitionBuffer r.ir r.filterLength r.alignment q n =
      p.calculateFilterScalingFactor * partition (p.effective r) p.blockLength q n := by
  rw [partition_effective]
  by_cases h : p.Loads r q
  · rw [if_pos h, p.partitionBuffer_of_loads h]
  · rw [if_neg h, mul_zero, p.partitionBuffer_of_not_loads h]

/-- The alignment passed on is reduced to that of the convolver twice. -/
theorem partitionBuffer_min (ir : Pointer R) (irLength alignment q : ℕ) :
    p.partitionBuffer ir irLength (min p.alignment alignment) q =
      p.partitionBuffer ir irLength alignment q := by
  unfold partitionBuffer
  rw [← Nat.min_assoc, Nat.min_self]

theorem transformImpulseResponse_min (ir : Pointer R) (irLength : ℕ) (result : ℕ → C)
    (alignment : ℕ) :
    p.transformImpulseResponse ir irLength result (min p.alignment alignment) =
      p.transformImpulseResponse ir irLength result alignment := by
  simp only [transformImpulseResponse, partitionBuffer_min]

/-- Each partition is stored in its own part of the row. -/
theorem storePartitions (result : ℕ → C) (values : ℕ → ℕ → C) {count q k : ℕ} (hq : q < count)
    (hk : k ≤ p.blockLength) :
    (List.range count).foldl
      (fun result q => overwrite result (q * p.dftRepresentationSizePadded)
        p.dftRepresentationSize (values q)) result
      (q * p.dftRepresentationSizePadded + k) = values q k := by
  have hsize := p.dftRepresentationSize_eq
  have hle := p.dftRepresentationSize_le
  induction count with
  | zero => omega
  | succ count ih =>
    rw [List.range_succ, List.foldl_append, List.foldl_cons, List.foldl_nil]
    by_cases heq : q = count
    · rw [heq, overwrite_inside _ _ _ (by omega)]
    · have hbefore : (q + 1) * p.dftRepresentationSizePadded ≤
          count * p.dftRepresentationSizePadded := Nat.mul_le_mul_right _ (by omega)
      rw [Nat.succ_mul] at hbefore
      rw [overwrite_outside _ _ (by omega), ih (by omega)]

end ConvolverParameters

namespace CoreConvolverUniform

variable {p : ConvolverParameters R C}

/-- The filter memory holds the scaled spectra of the partitions of some filters. -/
structure HoldsFilters (c : CoreConvolverUniform p) (filters : ℕ → ImpulseResponse R) : Prop where
  length_le : ∀ f, (filters f).filterLength ≤ p.maxFilterLength
  spectra : ∀ f q k, q < p.numberOfFilterPartitions → k ≤ p.blockLength →
    (c.getFdFilterPartition f q).data k =
      algebraMap R C p.fftRepresentation.forwardScalingFactor * p.blockSpectrum
        (fun n => p.calculateFilterScalingFactor *
          partition (p.effective (filters f)) p.blockLength q n) k

theorem clearFilters_holds (c : CoreConvolverUniform p) :
    c.clearFilters.HoldsFilters fun _ => .none where
  length_le _ := Nat.zero_le _
  spectra f q k _ _ := by
    have hpart : ∀ n, partition (p.effective (.none : ImpulseResponse R)) p.blockLength q n = 0 := by
      intro n
      simp [partition]
    simp only [hpart, mul_zero, ConvolverParameters.blockSpectrum, spectrumOf_zero]
    rfl

/-- Loading an impulse response replaces one filter. -/
theorem setImpulseResponse_holds {c c' : CoreConvolverUniform p}
    {filters : ℕ → ImpulseResponse R} (hc : c.HoldsFilters filters) {r : ImpulseResponse R}
    {filterIdx : ℕ} (h : c.setImpulseResponse r filterIdx = .ok c') :
    c'.HoldsFilters (Function.update filters filterIdx r) := by
  unfold setImpulseResponse ConvolverParameters.transformImpulseResponse at h
  split at h
  · cases h
  · split at h
    · cases h
    next hlen =>
      cases h
      constructor
      · intro f
        by_cases hf : f = filterIdx
        · rw [hf, Function.update_self]
          exact Nat.not_lt.mp hlen
        · rw [Function.update_of_ne hf]
          exact hc.length_le f
      · -- the partitions of the filter are the transforms of the parts that have been loaded
        intro f q k hq hk
        by_cases hf : f = filterIdx
        · subst hf
          simp only [getFdFilterPartition, Pointer.offset, Function.update_self]
          rw [p.storePartitions _ _ hq hk, p.forwardTransform_eq _ hk]
          congr 2
          funext n
          rw [p.partitionBuffer_min, p.partitionBuffer_eq]
        · simp only [getFdFilterPartition, Pointer.offset, Function.update_of_ne hf]
          exact hc.spectra f q k hq hk

/-- The filters in the rows of a matrix; those beyond its rows have not been set. -/
def rowResponses (newFilters : BasicMatrix R) (rows filterIdx : ℕ) : ImpulseResponse R :=
  if filterIdx < rows then rowResponse newFilters filterIdx else .none

theorem rowResponses_succ (newFilters : BasicMatrix R) (rows : ℕ) :
    rowResponses newFilters (rows + 1) =
      Function.update (rowResponses newFilters rows) rows (rowResponse newFilters rows) := by
  funext f
  by_cases hf : f = rows
  · rw [hf, Function.update_self]
    exact if_pos (Nat.lt_succ_self rows)
  · rw [Function.update_of_ne hf]
    unfold rowResponses
    by_cases hlt : f < rows
    · rw [if_pos hlt, if_pos (by omega)]
    · rw [if_neg hlt, if_neg (by omega)]

/-- The inputs held are the same, whatever happens to the filters. -/
structure SameInputs (c c' : CoreConvolverUniform p) : Prop where
  inputBuffers : c'.inputBuffers = c.inputBuffers
  inputFDL : c'.inputFDL = c.inputFDL
  fdlCycleOffset : c'.fdlCycleOffset = c.fdlCycleOffset

theorem SameInputs.refl (c : CoreConvolverUniform p) : SameInputs c c := ⟨rfl, rfl, rfl⟩

theorem SameInputs.trans {c c' c'' : CoreConvolverUniform p} (h : SameInputs c c')
    (h' : SameInputs c' c'') : SameInputs c c'' where
  inputBuffers := h'.inputBuffers.trans h.inputBuffers
  inputFDL := h'.inputFDL.trans h.inputFDL
  fdlCycleOffset := h'.fdlCycleOffset.trans h.fdlCycleOffset

/-- Impulse responses are refused if their index or their length is out of range. -/
theorem setImpulseResponse_eq_ok_iff (c : CoreConvolverUniform p) (r : ImpulseResponse R)
    (filterIdx : ℕ) :
    (∃ c', c.setImpulseResponse r filterIdx = .ok c') ↔
      filterIdx < p.maxNumberOfFilterEntries ∧ r.filterLength ≤ p.maxFilterLength := by
  unfold setImpulseResponse ConvolverParameters.transformImpulseResponse
  by_cases hidx : filterIdx < p.maxNumberOfFilterEntries
  · rw [if_neg (Nat.not_le.mpr hidx)]
    by_cases hlength : r.filterLength ≤ p.maxFilterLength
    · rw [if_neg (Nat.not_lt.mpr hlength)]
      exact iff_of_true ⟨_, rfl⟩ ⟨hidx, hlength⟩
    · rw [if_pos (Nat.not_le.mp hlength)]
      refine iff_of_false ?_ fun h => hlength h.2
      rintro ⟨_, ⟨⟩⟩
  · rw [if_pos (Nat.not_lt.mp hidx)]
    refine iff_of_false ?_ fun h => hidx h.1
    rintro ⟨_, ⟨⟩⟩

theorem setImpulseResponse_inputs {c c' : CoreConvolverUniform p} {r : ImpulseResponse R}
    {filterIdx : ℕ} (h : c.setImpulseResponse r filterIdx = .ok c') : SameInputs c c' := by
  unfold setImpulseResponse ConvolverParameters.transformImpulseResponse at h
  split at h
  · cases h
  · split at h
    · cases h
    · cases h
      exact ⟨rfl, rfl, rfl⟩

/-- Loading the rows of a matrix one after the other. -/
theorem loadRows_holds {c c' : CoreConvolverUniform p} {newFilters : BasicMatrix R}
    (hc : c.HoldsFilters fun _ => .none) {rows : ℕ}
    (h : (List.range rows).foldlM
      (fun c filterIdx => c.setImpulseResponse (rowResponse newFilters filterIdx) filterIdx) c =
        .ok c') :
    c'.HoldsFilters (rowResponses newFilters rows) ∧ SameInputs c c' := by
  induction rows generalizing c' with
  | zero =>
    cases h
    exact ⟨hc, SameInputs.refl c⟩
  | succ rows ih =>
    rw [List.range_succ, List.foldlM_append] at h
    obtain ⟨loaded, hloaded, hlast⟩ := exists_of_bind_ok h
    obtain ⟨next, hnext, heq⟩ := exists_of_bind_ok hlast
    cases heq
    obtain ⟨hfilters, hinputs⟩ := ih hloaded
    rw [rowResponses_succ]
    exact ⟨setImpulseResponse_holds hfilters hnext,
      hinputs.trans (setImpulseResponse_inputs hnext)⟩

/-- Initialising the filters replaces all of them. -/
theorem initFilters_holds {c c' : CoreConvolverUniform p} {newFilters : BasicMatrix R}
    (h : c.initFilters newFilters = .ok c') :
    c'.HoldsFilters (rowResponses newFilters newFilters.numberOfRows) ∧ SameInputs c c' := by
  unfold initFilters at h
  simp only at h
  split at h
  · cases h
  · split at h
    · cases h
    · obtain ⟨loaded, hloaded, heq⟩ := exists_of_bind_ok h
      cases heq
      obtain ⟨hfilters, hinputs⟩ := loadRows_holds c.clearFilters_holds hloaded
      refine ⟨⟨hfilters.length_le, ?_⟩, ⟨hinputs.inputBuffers, hinputs.inputFDL,
        hinputs.fdlCycleOffset⟩⟩
      intro f q k hq hk
      by_cases hf : newFilters.numberOfRows ≤ f
      · -- the excess filters are zeroed
        have hnone : rowResponses newFilters newFilters.numberOfRows f = .none :=
          if_neg (by omega)
        have hcleared := c.clearFilters_holds.spectra f q k hq hk
        rw [hnone, ← hcleared]
        simp only [getFdFilterPartition, Pointer.offset, if_pos hf]
        rfl
      · have hloadedRow := hfilters.spectra f q k hq hk
        rw [← hloadedRow]
        simp only [getFdFilterPartition, Pointer.offset, if_neg hf]

/-! ### The delay line -/

/-- The input buffers and the delay line hold the last blocks of the input signals, of
which `time` samples have been processed. -/
structure HoldsInputs (c : CoreConvolverUniform p) (signal : ℕ → ℕ → R) (time : ℕ) : Prop where
  numberOfChannels : c.inputBuffers.numberOfChannels = p.numberOfInputs
  length : c.inputBuffers.length = p.dftSize
  buffers : c.inputBuffers.Holds signal time
  spectra : ∀ ch j k, ch < p.numberOfInputs → j < p.numberOfFilterPartitions →
    k ≤ p.blockLength →
    (c.getFdlBlock ch j).data k =
      algebraMap R C p.fftRepresentation.forwardScalingFactor *
        p.blockSpectrum (frame (signal ch) time p.blockLength j) k

theorem HoldsInputs.of_same {c c' : CoreConvolverUniform p} {signal : ℕ → ℕ → R} {time : ℕ}
    (hc : c.HoldsInputs signal time) (h : SameInputs c c') : c'.HoldsInputs signal time where
  numberOfChannels := by rw [h.inputBuffers, hc.numberOfChannels]
  length := by rw [h.inputBuffers, hc.length]
  buffers := by rw [h.inputBuffers]; exact hc.buffers
  spectra ch j k hch hj hk := by
    rw [← hc.spectra ch j k hch hj hk]
    simp only [getFdlBlock, fdlColumn, h.inputFDL, h.fdlCycleOffset]

/-- The samples of the future do not matter. -/
theorem HoldsInputs.congr {c : CoreConvolverUniform p} {signal signal' : ℕ → ℕ → R} {time : ℕ}
    (hc : c.HoldsInputs signal time) (h : ∀ ch t, t < time → signal ch t = signal' ch t) :
    c.HoldsInputs signal' time where
  numberOfChannels := hc.numberOfChannels
  length := hc.length
  buffers := hc.buffers.congr h
  spectra ch j k hch hj hk := by
    rw [hc.spectra ch j k hch hj hk]
    congr 1
    apply spectrumOf_congr
    intro n hn
    apply Signal.past_congr (h ch)
    change n < 2 * p.blockLength at hn
    omega

/-- Any samples may come next. -/
theorem HoldsInputs.continued {c : CoreConvolverUniform p} {signal : ℕ → ℕ → R} {time : ℕ}
    (hc : c.HoldsInputs signal time) (input : ℕ → ℕ → R) :
    c.HoldsInputs (fun ch => Signal.continued (signal ch) time (input ch)) time := by
  apply hc.congr
  intro ch t ht
  exact (Signal.continued_of_lt _ _ ht).symm

/-- Before the first block, everything is silent. -/
theorem create_holds {initialFilters : BasicMatrix R} {c : CoreConvolverUniform p}
    (h : create p initialFilters = .ok c) (signal : ℕ → ℕ → R) :
    c.HoldsFilters (rowResponses initialFilters initialFilters.numberOfRows) ∧
      c.HoldsInputs signal 0 := by
  unfold create at h
  split at h
  next hvalid =>
    obtain ⟨hfilters, hinputs⟩ := initFilters_holds h
    have hbuffers := CircularBuffer.holds_create p.numberOfInputs p.dftSize p.alignment
      p.dftSize_pos signal
    refine ⟨hfilters, HoldsInputs.of_same ⟨rfl, rfl, hbuffers, ?_⟩ hinputs⟩
    intro ch j k _ _ _
    have hsilent : p.blockSpectrum (frame (signal ch) 0 p.blockLength j) k = 0 := by
      have hzero : p.blockSpectrum (fun _ => 0) k = 0 := spectrumOf_zero _ _ _
      rw [← hzero]
      apply spectrumOf_congr
      intro n hn
      exact frame_zero (signal ch) hn
    rw [hsilent, mul_zero]
    rfl
  · cases h

/-- The position of a block after the origin has moved back. -/
theorem mod_advance {parts : ℕ} (hparts : 0 < parts) (offset j : ℕ) :
    ((offset + parts - 1) % parts + (j + 1)) % parts = (offset + j) % parts := by
  have hsum : offset + parts - 1 + (j + 1) = offset + j + parts := by omega
  rw [Nat.mod_add_mod, hsum, Nat.add_mod_right]

/-- Different blocks have different positions. -/
theorem mod_block_ne {parts j : ℕ} (offset : ℕ) (hpos : 0 < j) (hj : j < parts) :
    (offset + j) % parts ≠ (offset + 0) % parts := by
  intro h
  have hmod : j % parts = 0 % parts := Nat.ModEq.add_left_cancel' offset h
  rw [Nat.mod_eq_of_lt hj, Nat.zero_mod] at hmod
  omega

/-- The parts of a row taken by different blocks do not overlap. -/
theorem column_disjoint {a b size k : ℕ} (hab : a ≠ b) (hk : k < size) {width : ℕ}
    (hwidth : width ≤ size) : a * size + k < b * size ∨ b * size + width ≤ a * size + k := by
  rcases Nat.lt_or_gt_of_ne hab with h | h
  · have hle : (a + 1) * size ≤ b * size := Nat.mul_le_mul_right size h
    rw [Nat.succ_mul] at hle
    omega
  · have hle : (b + 1) * size ≤ a * size := Nat.mul_le_mul_right size h
    rw [Nat.succ_mul] at hle
    omega

/-- Without partitions, the index computation of the delay line divides by zero. -/
theorem processInputs_of_noPartitions {c : CoreConvolverUniform p} {signal : ℕ → ℕ → R}
    {time : ℕ} (hc : c.HoldsInputs signal time) (hparts : p.numberOfFilterPartitions = 0)
    (input : ℕ → ℕ → R) : c.processInputs input = .error .divisionByZero := by
  have hle : ¬c.inputBuffers.length < p.blockLength := by
    rw [hc.length, ConvolverParameters.dftSize, calculateDftSize]
    omega
  simp [processInputs, CircularBuffer.write, CircularBuffer.writeChecked, hc.numberOfChannels,
    hle, advanceFDL, hparts, bind, Except.bind]

/-- **One block of input.**  The spectrum of the newest frame replaces the oldest one. -/
theorem processInputs_holds {c : CoreConvolverUniform p} {signal : ℕ → ℕ → R} {time : ℕ}
    (hc : c.HoldsInputs signal time) (hparts : 0 < p.numberOfFilterPartitions)
    {input : ℕ → ℕ → R}
    (hinput : ∀ ch k, ch < p.numberOfInputs → k < p.blockLength →
      input ch k = signal ch (time + k)) :
    ∃ c', c.processInputs input = .ok c' ∧ c'.HoldsInputs signal (time + p.blockLength) ∧
      c'.filterPartitionsFrequencyDomain = c.filterPartitionsFrequencyDomain := by
  have hsize := p.dftRepresentationSize_eq
  have hpadded := p.dftRepresentationSize_le
  have hlength : p.dftSize = 2 * p.blockLength := rfl
  have hle : ¬c.inputBuffers.length < p.blockLength := by
    rw [hc.length]
    omega
  have hallocated := c.inputBuffers.length_le
  rw [hc.length] at hallocated
  have hbuffers := hc.buffers.store_advance (n := p.blockLength) (by omega) input fun ch k hch hk =>
    hinput ch k (hc.numberOfChannels ▸ hch) hk
  simp only [processInputs, CircularBuffer.write, CircularBuffer.writeChecked,
    hc.numberOfChannels, ne_eq, not_true_eq_false, if_false, gt_iff_lt, hle, advanceFDL,
    Nat.ne_of_gt hparts, bind, Except.bind, pure, Except.pure]
  refine ⟨_, rfl, ⟨hc.numberOfChannels, hc.length, hbuffers, ?_⟩, rfl⟩
  intro ch j k hch hj hk
  simp only [getFdlBlock, Pointer.offset, fdlColumn, if_pos hch]
  cases j with
  | zero =>
    -- the block just transformed
    rw [overwrite_inside _ _ _ (by omega), p.forwardTransform_eq _ hk]
    congr 1
    apply spectrumOf_congr
    intro n hn
    rw [hbuffers.readAt (by rw [← hc.numberOfChannels] at hch; exact hch) hallocated hn, frame]
    congr 1
    omega
  | succ j =>
    -- an older block, which has moved by one place
    have hne := mod_block_ne ((c.fdlCycleOffset + p.numberOfFilterPartitions - 1) %
      p.numberOfFilterPartitions) (Nat.succ_pos j) hj
    rw [overwrite_outside _ _ (column_disjoint hne (by omega) hpadded), mod_advance hparts]
    have hold := hc.spectra ch j k hch (by omega) hk
    simp only [getFdlBlock, Pointer.offset, fdlColumn] at hold
    rw [hold]
    congr 1
    apply spectrumOf_congr
    intro n hn
    rw [frame_succ _ _ _ _ hn]

/-! ### Multiplying the spectra -/

/-- All blocks of the matrices are aligned. -/
theorem checkAlignment_block (c : CoreConvolverUniform p) (a : ℕ) :
    checkAlignment (0 + a * p.dftRepresentationSizePadded) p.complexAlignment = true := by
  apply checkAlignment_of_dvd
  · by_cases hzero : p.complexAlignment = 0
    · exact Or.inl hzero
    · have hvalid := c.alignment_valid.2
      rw [arrayAlignment, if_neg hzero] at hvalid
      exact Or.inr hvalid
  · intro hne
    rw [Nat.zero_add]
    exact Nat.dvd_mul_left_of_dvd (dvd_nextAlignedSize _ hne) a

theorem checkAlignment_start (c : CoreConvolverUniform p) :
    checkAlignment 0 p.complexAlignment = true := by
  simpa using c.checkAlignment_block 0

/-- The product of an input block with a filter partition. -/
def blockProduct (c : CoreConvolverUniform p) (inputIndex filterIndex blockIndex k : ℕ) : C :=
  (c.getFdlBlock inputIndex blockIndex).data k *
    (c.getFdFilterPartition filterIndex blockIndex).data k

theorem vectorMultiply_blocks (c : CoreConvolverUniform p) (i f q : ℕ) :
    vectorMultiply (c.getFdlBlock i q) (c.getFdFilterPartition f q) ⟨0, fun _ => 0⟩
      p.dftRepresentationSizePadded p.complexAlignment =
        .ok fun k => if k < p.dftRepresentationSizePadded then c.blockProduct i f q k else 0 := by
  have hfdl := c.checkAlignment_block ((c.fdlCycleOffset + q) % p.numberOfFilterPartitions)
  have hfilter := c.checkAlignment_block q
  simp only [vectorMultiply, getFdlBlock, getFdFilterPartition, fdlColumn, Pointer.offset, hfdl,
    hfilter, c.checkAlignment_start, blockProduct, Bool.not_true, Bool.false_eq_true, if_false]

theorem vectorMultiplyAddInplace_blocks (c : CoreConvolverUniform p) (i f q : ℕ)
    (accumulator : ℕ → C) :
    vectorMultiplyAddInplace (c.getFdlBlock i q) (c.getFdFilterPartition f q) ⟨0, accumulator⟩
      p.dftRepresentationSizePadded p.complexAlignment =
        .ok fun k =>
          if k < p.dftRepresentationSizePadded then accumulator k + c.blockProduct i f q k
          else accumulator k := by
  have hfdl := c.checkAlignment_block ((c.fdlCycleOffset + q) % p.numberOfFilterPartitions)
  have hfilter := c.checkAlignment_block q
  simp only [vectorMultiplyAddInplace, getFdlBlock, getFdFilterPartition, fdlColumn,
    Pointer.offset, hfdl, hfilter, c.checkAlignment_start, blockProduct, Bool.not_true,
    Bool.false_eq_true, if_false]

/-- The loop over the blocks after the first one. -/
theorem accumulate_eq (c : CoreConvolverUniform p) (i f count : ℕ) {accumulator : ℕ → C}
    (h : ∀ k, k < p.dftRepresentationSizePadded → accumulator k = c.blockProduct i f 0 k) :
    ∃ result, (List.range' 1 count).foldlM
        (fun accumulator blockIndex =>
          vectorMultiplyAddInplace (c.getFdlBlock i blockIndex)
            (c.getFdFilterPartition f blockIndex) ⟨0, accumulator⟩
            p.dftRepresentationSizePadded p.complexAlignment)
        accumulator = .ok result ∧
      ∀ k, k < p.dftRepresentationSizePadded →
        result k = ∑ q ∈ Finset.range (count + 1), c.blockProduct i f q k := by
  induction count with
  | zero =>
    refine ⟨accumulator, rfl, ?_⟩
    intro k hk
    rw [h k hk, Finset.sum_range_one]
  | succ count ih =>
    obtain ⟨result, hfold, hresult⟩ := ih
    rw [List.range'_1_concat, List.foldlM_append, hfold]
    simp only [bind, Except.bind, List.foldlM_cons, List.foldlM_nil,
      vectorMultiplyAddInplace_blocks]
    refine ⟨_, rfl, ?_⟩
    intro k hk
    rw [if_pos hk, hresult k hk, Finset.sum_range_succ _ (count + 1), Nat.add_comm 1 count]

/-- The sum of the products over all partitions. -/
theorem blockConvolution_eq (c : CoreConvolverUniform p) (hparts : 0 < p.numberOfFilterPartitions)
    (i f : ℕ) : ∃ accumulator, c.blockConvolution i f = .ok accumulator ∧
      ∀ k, k < p.dftRepresentationSizePadded →
        accumulator k = ∑ q ∈ Finset.range p.numberOfFilterPartitions, c.blockProduct i f q k := by
  have hfirst : ∀ k, k < p.dftRepresentationSizePadded →
      (if k < p.dftRepresentationSizePadded then c.blockProduct i f 0 k else 0) =
        c.blockProduct i f 0 k := fun k hk => if_pos hk
  obtain ⟨result, hfold, hresult⟩ := c.accumulate_eq i f (p.numberOfFilterPartitions - 1) hfirst
  rw [Nat.sub_add_cancel hparts] at hresult
  refine ⟨result, ?_, hresult⟩
  simp only [blockConvolution, vectorMultiply_blocks, bind, Except.bind]
  exact hfold

/-- Filtering never fails; with the add flag, the scaled sum is added to the result. -/
theorem processFilter_eq (c : CoreConvolverUniform p) (hparts : 0 < p.numberOfFilterPartitions)
    (i f : ℕ) (gain : R) (result : ℕ → C) :
    ∃ row, c.processFilter i f gain result true = .ok row ∧
      ∀ k, k < p.dftRepresentationSizePadded →
        row k = result k + algebraMap R C gain *
          ∑ q ∈ Finset.range p.numberOfFilterPartitions, c.blockProduct i f q k := by
  obtain ⟨accumulator, hconv, haccumulator⟩ := c.blockConvolution_eq hparts i f
  refine ⟨fun k => if k < p.dftRepresentationSizePadded
    then result k + algebraMap R C gain * accumulator k else result k, ?_, fun k hk => ?_⟩
  · simp only [processFilter, hconv, bind, Except.bind, if_true,
      vectorMultiplyConstantAddInplace, c.checkAlignment_start, Bool.not_true,
      Bool.false_eq_true, if_false]
  · rw [← haccumulator k hk]
    exact if_pos hk

/-- What a routing entry contributes to the samples of an output block, up to the scaling
of the inverse transform. -/
def contribution (p : ConvolverParameters R C) (filter : ℕ → R) (signal : ℕ → R) (time n : ℕ) :
    R :=
  p.fftRepresentation.forwardScalingFactor ^ 2 * p.calculateFilterScalingFactor *
    ∑ q ∈ Finset.range p.numberOfFilterPartitions,
      circular p.dftSize (partition filter p.blockLength q) (frame signal time p.blockLength q) n

/-- **The convolution theorem for a filter.**  The sum over the partitions is the spectrum
of a time-domain signal. -/
theorem sum_blockProduct {c : CoreConvolverUniform p} {filters : ℕ → ImpulseResponse R}
    {signal : ℕ → ℕ → R} {time : ℕ} (hfilters : c.HoldsFilters filters)
    (hinputs : c.HoldsInputs signal time) {i : ℕ} (hi : i < p.numberOfInputs) (f : ℕ) {k : ℕ}
    (hk : k ≤ p.blockLength) :
    ∑ q ∈ Finset.range p.numberOfFilterPartitions, c.blockProduct i f q k =
      p.blockSpectrum (contribution p (p.effective (filters f)) (signal i) time) k := by
  have hroot : p.fftRepresentation.rootOfUnity ^ p.dftSize = 1 := p.fftRepresentation.root_pow
  unfold contribution ConvolverParameters.blockSpectrum
  rw [spectrumOf_mul_left, spectrumOf_sum, Finset.mul_sum]
  apply Finset.sum_congr rfl
  intro q hq
  have hq' := Finset.mem_range.mp hq
  rw [blockProduct, hinputs.spectra i q k hi hq' hk, hfilters.spectra f q k hq' hk,
    ConvolverParameters.blockSpectrum, ConvolverParameters.blockSpectrum, spectrumOf_mul_left,
    spectrumOf_circular hroot, map_mul, map_pow]
  ring

/-- The samples of the contribution that are kept are those of the direct convolution. -/
theorem contribution_upper_half (p : ConvolverParameters R C) (filter signal : ℕ → R)
    (time : ℕ) {s : ℕ} (hs : s < p.blockLength) :
    p.fftRepresentation.inverseScalingFactor *
        (p.dftSize * contribution p filter signal (time + p.blockLength) (p.blockLength + s)) =
      p.fftRepresentation.forwardScalingFactor *
        convolution filter (p.numberOfFilterPartitions * p.blockLength) signal (time + s) := by
  have hfwd := p.fftRepresentation.forward_ne_zero
  have hinv := p.fftRepresentation.inverse_ne_zero
  have hsize : (p.dftSize : R) ≠ 0 := p.fftRepresentation.dftSize_ne_zero
  have hconv := sum_circular_partition filter signal time p.numberOfFilterPartitions hs
  rw [← hconv]
  simp only [contribution, ConvolverParameters.calculateFilterScalingFactor]
  change _ * (_ * (_ * ∑ q ∈ _, circular (2 * p.blockLength) _ _ _)) = _
  field_simp

end CoreConvolverUniform

/-! ### Transformed filters -/

namespace ConvolverParameters

variable (p : ConvolverParameters R C)

/-- The coefficients for which there is room in a transformed filter. -/
def capacity : ℕ := p.numberOfFilterPartitions * p.blockLength

theorem maxFilterLength_le_capacity : p.maxFilterLength ≤ p.capacity := by
  have hpos := p.blockLength_pos
  have hlt := Nat.lt_div_mul_add hpos (a := p.maxFilterLength + p.blockLength - 1)
  show _ ≤ (p.maxFilterLength + p.blockLength - 1) / p.blockLength * p.blockLength
  omega

/-- An array in the format of the filter memory is the transform of an impulse response. -/
def Represents (fdFilter : ℕ → C) (h : ℕ → R) : Prop :=
  ∀ q k, q < p.numberOfFilterPartitions → k ≤ p.blockLength →
    fdFilter (q * p.dftRepresentationSizePadded + k) =
      p.blockSpectrum (fun n => p.calculateFilterScalingFactor * partition h p.blockLength q n) k

/-- The impulse response of a transformed filter, by the inverse transform of its
partitions. -/
def responseOf (fdFilter : ℕ → C) (k : ℕ) : R :=
  if k < p.capacity then
    p.fftRepresentation.inverseTransform
        (fun j => fdFilter (k / p.blockLength * p.dftRepresentationSizePadded + j))
        (k % p.blockLength) *
      p.fftRepresentation.forwardScalingFactor
  else 0

theorem scaling_cancel (x : R) :
    p.fftRepresentation.inverseScalingFactor * (p.dftSize * (p.calculateFilterScalingFactor * x)) *
      p.fftRepresentation.forwardScalingFactor = x := by
  have hfwd := p.fftRepresentation.forward_ne_zero
  have hinv := p.fftRepresentation.inverse_ne_zero
  have hsize : (p.dftSize : R) ≠ 0 := p.fftRepresentation.dftSize_ne_zero
  unfold calculateFilterScalingFactor
  field_simp

variable {p}

/-- A transformed filter determines its impulse response. -/
theorem Represents.responseOf {fdFilter : ℕ → C} {h : ℕ → R} (hfilter : p.Represents fdFilter h)
    {k : ℕ} (hk : k < p.capacity) : p.responseOf fdFilter k = h k := by
  have hpos := p.blockLength_pos
  have hq : k / p.blockLength < p.numberOfFilterPartitions := Nat.div_lt_of_lt_mul (by
    rw [Nat.mul_comm]; exact hk)
  have hn : k % p.blockLength < p.blockLength := Nat.mod_lt k hpos
  have hsize : calculateDftSize p.blockLength = 2 * p.blockLength := rfl
  have hinverse := p.fftRepresentation.inverse_exact
    (fun n => p.calculateFilterScalingFactor * partition h p.blockLength (k / p.blockLength) n)
    (fun j => fdFilter (k / p.blockLength * p.dftRepresentationSizePadded + j))
    (fun j hj => hfilter _ j hq (by omega)) (k % p.blockLength) (by omega)
  unfold ConvolverParameters.responseOf
  rw [if_pos hk, hinverse]
  have hcancel := p.scaling_cancel (partition h p.blockLength (k / p.blockLength)
    (k % p.blockLength))
  refine Eq.trans hcancel ?_
  rw [partition, if_pos hn, Nat.div_add_mod']

theorem Represents.congr {fdFilter : ℕ → C} {h h' : ℕ → R} (hfilter : p.Represents fdFilter h)
    (heq : ∀ k, k < p.capacity → h k = h' k) : p.Represents fdFilter h' := by
  intro q k hq hk
  rw [hfilter q k hq hk]
  apply spectrumOf_congr
  intro n _
  congr 1
  unfold partition
  split
  next hn =>
    apply heq
    have hle : (q + 1) * p.blockLength ≤ p.capacity := Nat.mul_le_mul_right _ hq
    rw [Nat.succ_mul] at hle
    omega
  · rfl

/-- A transformed filter is the transform of the response read back from it. -/
theorem Represents.self {fdFilter : ℕ → C} {h : ℕ → R} (hfilter : p.Represents fdFilter h) :
    p.Represents fdFilter (p.responseOf fdFilter) :=
  hfilter.congr fun _ hk => (hfilter.responseOf hk).symm

/-- The transform of silence. -/
theorem represents_zero : p.Represents (fun _ => (0 : C)) fun _ => 0 := by
  intro q k _ _
  have hzero : (fun n => p.calculateFilterScalingFactor *
      partition (fun _ => (0 : R)) p.blockLength q n) = fun _ => 0 := by
    funext n
    simp [partition]
  rw [hzero]
  exact (spectrumOf_zero _ _ _).symm

theorem partition_add (x y : ℕ → R) (B q n : ℕ) :
    partition (fun k => x k + y k) B q n = partition x B q n + partition y B q n := by
  unfold partition
  split
  · rfl
  · exact (add_zero 0).symm

theorem partition_mul_left (w : R) (x : ℕ → R) (B q n : ℕ) :
    partition (fun k => w * x k) B q n = w * partition x B q n := by
  unfold partition
  split
  · rfl
  · exact (mul_zero w).symm

/-- Transformed filters may be added, -/
theorem Represents.add {fdFilter fdFilter' : ℕ → C} {h h' : ℕ → R}
    (hfilter : p.Represents fdFilter h) (hfilter' : p.Represents fdFilter' h') :
    p.Represents (fun k => fdFilter k + fdFilter' k) fun k => h k + h' k := by
  intro q k hq hk
  dsimp only
  rw [hfilter q k hq hk, hfilter' q k hq hk]
  unfold blockSpectrum
  rw [← spectrumOf_add]
  apply spectrumOf_congr
  intro n _
  rw [partition_add]
  ring

/-- and be multiplied by a number. -/
theorem Represents.smul {fdFilter : ℕ → C} {h : ℕ → R} (hfilter : p.Represents fdFilter h)
    (w : R) : p.Represents (fun k => w • fdFilter k) fun k => w • h k := by
  intro q k hq hk
  dsimp only
  rw [hfilter q k hq hk, Algebra.smul_def]
  unfold blockSpectrum
  rw [← spectrumOf_mul_left]
  apply spectrumOf_congr
  intro n _
  simp only [smul_eq_mul]
  rw [partition_mul_left]
  ring

/-- What loading an impulse response writes into the filter memory. -/
theorem represents_transformImpulseResponse {r : ImpulseResponse R} {result fdFilter : ℕ → C}
    (h : p.transformImpulseResponse r.ir r.filterLength result (min p.alignment r.alignment) =
      .ok fdFilter) :
    p.Represents fdFilter
      fun k => p.fftRepresentation.forwardScalingFactor * p.effective r k := by
  unfold transformImpulseResponse at h
  split at h
  · cases h
  · cases h
    intro q k hq hk
    rw [p.storePartitions _ _ hq hk, p.forwardTransform_eq _ hk]
    unfold blockSpectrum
    rw [← spectrumOf_mul_left]
    apply spectrumOf_congr
    intro n _
    rw [p.partitionBuffer_min, p.partitionBuffer_eq]
    unfold partition
    split
    · ring
    · ring

/-- Only the elements that are stored matter. -/
theorem Represents.of_eq {fdFilter fdFilter' : ℕ → C} {h : ℕ → R}
    (hfilter : p.Represents fdFilter h)
    (heq : ∀ k, k < p.dftRepresentationSizePadded * p.numberOfFilterPartitions →
      fdFilter' k = fdFilter k) : p.Represents fdFilter' h := by
  intro q k hq hk
  have hsize := p.dftRepresentationSize_eq
  have hpadded := p.dftRepresentationSize_le
  have hle : (q + 1) * p.dftRepresentationSizePadded ≤
      p.numberOfFilterPartitions * p.dftRepresentationSizePadded := Nat.mul_le_mul_right _ hq
  rw [Nat.succ_mul, Nat.mul_comm p.numberOfFilterPartitions] at hle
  rw [heq _ (by omega), hfilter q k hq hk]

/-- All coefficients of an impulse response reach the filter memory, unscaled. -/
def Keeps (p : ConvolverParameters R C) (r : ImpulseResponse R) : Prop :=
  ∀ k, r.coefficient k ≠ 0 →
    p.fftRepresentation.forwardScalingFactor = 1 ∧ p.Loads r (k / p.blockLength)

theorem Keeps.effective {r : ImpulseResponse R} (h : p.Keeps r) (k : ℕ) :
    p.fftRepresentation.forwardScalingFactor * p.effective r k = r.coefficient k := by
  by_cases hk : r.coefficient k = 0
  · rw [ConvolverParameters.effective, hk, ite_self, mul_zero]
  · obtain ⟨hfwd, hloads⟩ := h k hk
    rw [ConvolverParameters.effective, if_pos hloads, hfwd, one_mul]

end ConvolverParameters

namespace CoreConvolverUniform

variable {p : ConvolverParameters R C}

theorem setImpulseResponse_eq_ok {c c' : CoreConvolverUniform p} {r : ImpulseResponse R}
    {filterIdx : ℕ} (h : c.setImpulseResponse r filterIdx = .ok c') :
    ∃ fdFilter, c' = { c with
        filterPartitionsFrequencyDomain :=
          Function.update c.filterPartitionsFrequencyDomain filterIdx fdFilter } ∧
      r.filterLength ≤ p.maxFilterLength ∧
      p.Represents fdFilter
        fun k => p.fftRepresentation.forwardScalingFactor * p.effective r k := by
  unfold setImpulseResponse at h
  split at h
  · cases h
  · obtain ⟨fdFilter, htransform, heq⟩ := exists_of_bind_ok h
    cases heq
    have hlength : r.filterLength ≤ p.maxFilterLength := by
      unfold ConvolverParameters.transformImpulseResponse at htransform
      split at htransform
      · cases htransform
      next hle => exact Nat.not_lt.mp hle
    exact ⟨fdFilter, rfl, hlength,
      ConvolverParameters.represents_transformImpulseResponse htransform⟩

theorem setFilter_eq_ok {c c' : CoreConvolverUniform p} {transformedFilter : Pointer C}
    {filterIdx alignment : ℕ} (h : c.setFilter transformedFilter filterIdx alignment = .ok c') :
    c' = c ∨ ∃ fdFilter, c' = { c with
        filterPartitionsFrequencyDomain :=
          Function.update c.filterPartitionsFrequencyDomain filterIdx fdFilter } := by
  unfold setFilter at h
  split at h
  · cases h
  · split at h
    next row _ =>
      cases h
      exact Or.inr ⟨row, rfl⟩
    · cases h
      exact Or.inl rfl

/-- A filter whose start is aligned as promised is copied. -/
theorem setFilter_aligned {c c' : CoreConvolverUniform p} {transformedFilter : Pointer C}
    {filterIdx alignment : ℕ} (h : c.setFilter transformedFilter filterIdx alignment = .ok c')
    (haligned : checkAlignment transformedFilter.address (min alignment p.complexAlignment) = true)
    {h' : ℕ → R} (hfilter : p.Represents transformedFilter.data h') :
    ∃ fdFilter, c' = { c with
        filterPartitionsFrequencyDomain :=
          Function.update c.filterPartitionsFrequencyDomain filterIdx fdFilter } ∧
      p.Represents fdFilter h' := by
  unfold setFilter at h
  split at h
  · cases h
  · simp only [vectorCopy, haligned, checkAlignment_zero haligned, Bool.not_true,
      Bool.false_eq_true, if_false] at h
    cases h
    exact ⟨_, rfl, hfilter.of_eq fun k hk => if_pos hk⟩

theorem HoldsFilters.represents {c : CoreConvolverUniform p} {filters : ℕ → ImpulseResponse R}
    (h : c.HoldsFilters filters) (f : ℕ) :
    p.Represents (c.filterPartitionsFrequencyDomain f)
      fun k => p.fftRepresentation.forwardScalingFactor * p.effective (filters f) k := by
  intro q k hq hk
  refine (h.spectra f q k hq hk).trans ?_
  unfold ConvolverParameters.blockSpectrum
  rw [← spectrumOf_mul_left]
  apply spectrumOf_congr
  intro n _
  unfold partition
  split
  · ring
  · ring

/-- Filtering without the add flag replaces the result. -/
theorem processFilter_replaces (c : CoreConvolverUniform p)
    (hparts : 0 < p.numberOfFilterPartitions) (i f : ℕ) (gain : R) (result : ℕ → C) :
    ∃ row, c.processFilter i f gain result false = .ok row ∧
      ∀ k, k < p.dftRepresentationSizePadded → row k = algebraMap R C gain *
        ∑ q ∈ Finset.range p.numberOfFilterPartitions, c.blockProduct i f q k := by
  obtain ⟨accumulator, hconv, haccumulator⟩ := c.blockConvolution_eq hparts i f
  refine ⟨fun k => if k < p.dftRepresentationSizePadded
    then algebraMap R C gain * accumulator k else result k, ?_, fun k hk => ?_⟩
  · simp only [processFilter, hconv, bind, Except.bind, vectorMultiplyConstant,
      c.checkAlignment_start, Bool.not_true, Bool.false_eq_true, if_false]
  · rw [← haccumulator k hk]
    exact if_pos hk

/-- **A block of a convolution.**  Filtering with a transformed filter and transforming back
yields the samples of the direct convolution. -/
theorem processFilter_convolves {c : CoreConvolverUniform p} {signal : ℕ → ℕ → R} {time : ℕ}
    (hinputs : c.HoldsInputs signal (time + p.blockLength))
    (hparts : 0 < p.numberOfFilterPartitions) {i : ℕ} (hi : i < p.numberOfInputs) {f : ℕ}
    {h : ℕ → R} (hfilter : p.Represents (c.filterPartitionsFrequencyDomain f) h) (gain : R)
    (result : ℕ → C) :
    ∃ row, c.processFilter i f gain result false = .ok row ∧
      ∀ s, s < p.blockLength →
        transformOutput p row s = gain * convolution h p.capacity (signal i) (time + s) := by
  obtain ⟨row, hrow, hvalue⟩ := c.processFilter_replaces hparts i f gain result
  refine ⟨row, hrow, fun s hs => ?_⟩
  have hroot : p.fftRepresentation.rootOfUnity ^ p.dftSize = 1 := p.fftRepresentation.root_pow
  have hpadded := p.dftRepresentationSize_le
  have hsize := p.dftRepresentationSize_eq
  have hdft : calculateDftSize p.blockLength = 2 * p.blockLength := rfl
  -- the row is the spectrum of the scaled sum of the circular convolutions
  have hspectrum : ∀ k, k ≤ p.blockLength → row k = p.blockSpectrum
      (fun n => p.calculateFilterScalingFactor *
        (p.fftRepresentation.forwardScalingFactor * (gain *
          ∑ q ∈ Finset.range p.numberOfFilterPartitions, circular p.dftSize
            (partition h p.blockLength q)
            (frame (signal i) (time + p.blockLength) p.blockLength q) n))) k := by
    intro k hk
    rw [hvalue k (by omega)]
    unfold ConvolverParameters.blockSpectrum
    rw [spectrumOf_mul_left, spectrumOf_mul_left, spectrumOf_mul_left, spectrumOf_sum,
      Finset.mul_sum, Finset.mul_sum, Finset.mul_sum, Finset.mul_sum]
    apply Finset.sum_congr rfl
    intro q hq
    have hq' := Finset.mem_range.mp hq
    have hpartition := hfilter q k hq' hk
    unfold ConvolverParameters.blockSpectrum at hpartition
    rw [blockProduct, hinputs.spectra i q k hi hq' hk, spectrumOf_circular hroot]
    show _ * (_ * c.filterPartitionsFrequencyDomain f _) = _
    rw [hpartition, spectrumOf_mul_left, ConvolverParameters.blockSpectrum]
    ring
  show p.fftRepresentation.inverseTransform row (p.blockLength + s) = _
  rw [p.fftRepresentation.inverse_exact _ row (fun k hk => hspectrum k (by omega)) _ (by omega)]
  have hcancel := p.scaling_cancel (gain *
    ∑ q ∈ Finset.range p.numberOfFilterPartitions, circular p.dftSize
      (partition h p.blockLength q) (frame (signal i) (time + p.blockLength) p.blockLength q)
      (p.blockLength + s))
  have hconv := sum_circular_partition h (signal i) time p.numberOfFilterPartitions hs
  show _ = gain * convolution h (p.numberOfFilterPartitions * p.blockLength) (signal i) _
  rw [← hconv]
  refine Eq.trans ?_ hcancel
  show _ * ((p.dftSize : R) * _) = _
  ring

end CoreConvolverUniform

end Visr
