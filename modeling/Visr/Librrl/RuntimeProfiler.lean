import Visr.Libefl.AlignedStorage
import Visr.Library.Execution
import Visr.Library.RunningStatistics

/-!
# Execution times of components

The profiler keeps running statistics of the times that the components need in each iteration, and
the times of the last iterations in a buffer.  Both have a counter and a reset of their own.

## Main results

* `RuntimeProfiler.Inv.finishIteration` — **one iteration**: the statistics are those of all times.
* `RuntimeProfiler.statistics_conform_iff` — in which sequences all calls conform: the mean must
  not be asked for before there is a time.
-/

namespace Visr

open Execution RunningStatistics

/-- The times are numbers.  The member `mFlow` only provides the number of components, their names
and the mutex. -/
structure RuntimeProfiler (K : Type) where
  cNumberOfAtomicComponents : ℕ
  mMeasurementSampleCounter : ℕ
  mStatisticsSampleCounter : ℕ
  mCurrentData : Efl.BasicVector K
  mCurrentMeasurementBuffer : Efl.BasicMatrix K
  mBackMeasurementBuffer : Efl.BasicMatrix K
  mRunningMean : Efl.BasicVector K
  mRunningM2 : Efl.BasicVector K
  mTmpBuffer : Efl.BasicVector K
  mTmpBuffer2 : Efl.BasicVector K

namespace RuntimeProfiler

section Operations

variable {K : Type} [Field K]

def create (K : Type) [Field K] (numberOfComponents measureBufferSize : ℕ) : RuntimeProfiler K where
  cNumberOfAtomicComponents := numberOfComponents
  mMeasurementSampleCounter := 0
  mStatisticsSampleCounter := 0
  mCurrentData := .zeros K numberOfComponents
  mCurrentMeasurementBuffer := .zeros K measureBufferSize numberOfComponents
  mBackMeasurementBuffer := .zeros K measureBufferSize numberOfComponents
  mRunningMean := .zeros K numberOfComponents
  mRunningM2 := .zeros K numberOfComponents
  mTmpBuffer := .zeros K numberOfComponents
  mTmpBuffer2 := .zeros K numberOfComponents

def numberOfComponents (p : RuntimeProfiler K) : ℕ := p.cNumberOfAtomicComponents

def measurementSamples (p : RuntimeProfiler K) : ℕ := p.mMeasurementSampleCounter

def statisticsSamples (p : RuntimeProfiler K) : ℕ := p.mStatisticsSampleCounter

def measurementBufferSize (p : RuntimeProfiler K) : ℕ := p.mCurrentMeasurementBuffer.numberOfRows

/-! ### Iterations -/

def setTime (p : RuntimeProfiler K) (componentIdx : ℕ) (timing : K) :
    Except Exception (RuntimeProfiler K) :=
  if componentIdx ≥ p.numberOfComponents then
    .error (.outOfRange "Index exceeds number of components.")
  else .ok { p with mCurrentData := p.mCurrentData.set componentIdx timing }

/-- The counter is a value of 64 bits. -/
def increment (counter : ℕ) : ℕ := (counter + 1) % 2 ^ 64

/-- The first part of `finishIteration()`. -/
def updateStatistics (p : RuntimeProfiler K) : Except Exception (RuntimeProfiler K) :=
  if p.mStatisticsSampleCounter = 0 then do
    let mean ← throwOnError "Error updating profiling data: raw timings."
      (vectorCopy p.mCurrentData.data p.mRunningMean.data p.numberOfComponents
        cVectorAlignmentSamples)
    .ok { p with mRunningMean := p.mRunningMean.setData mean }
  else do
    let invCount : K := 1 / (increment p.mStatisticsSampleCounter : ℕ)
    -- delta = newValue - mean
    let delta ← throwOnError "Error updating profiling data: mean."
      (vectorSubtract p.mCurrentData.data p.mRunningMean.data p.mTmpBuffer.data
        p.numberOfComponents cVectorAlignmentSamples)
    let mTmpBuffer := p.mTmpBuffer.setData delta
    -- mean += delta / count
    let quotient ← throwOnError "Error updating profiling data: mean."
      (vectorMultiplyConstant invCount mTmpBuffer.data p.mTmpBuffer2.data p.numberOfComponents
        cVectorAlignmentSamples)
    let mTmpBuffer2 := p.mTmpBuffer2.setData quotient
    let mean ← throwOnError "Error updating profiling data: mean."
      (vectorAddInplace mTmpBuffer2.data p.mRunningMean.data p.numberOfComponents
        cVectorAlignmentSamples)
    let mRunningMean := p.mRunningMean.setData mean
    -- delta2 = newValue - mean
    let delta2 ← throwOnError "Error updating profiling data: variance."
      (vectorSubtract p.mCurrentData.data mRunningMean.data mTmpBuffer2.data
        p.numberOfComponents cVectorAlignmentSamples)
    let mTmpBuffer2 := mTmpBuffer2.setData delta2
    -- M2 += delta * delta2
    let M2 ← throwOnError "Error updating profiling data: variance."
      (vectorMultiplyAddInplace mTmpBuffer.data mTmpBuffer2.data p.mRunningM2.data
        p.numberOfComponents cVectorAlignmentSamples)
    .ok { p with
      mRunningMean := mRunningMean
      mRunningM2 := p.mRunningM2.setData M2
      mTmpBuffer := mTmpBuffer
      mTmpBuffer2 := mTmpBuffer2 }

/-- The second part of `finishIteration()`. -/
def storeMeasurement (p : RuntimeProfiler K) : Except Exception (RuntimeProfiler K) :=
  if p.measurementBufferSize ≠ 0 then do
    let currentRowIdx := p.mMeasurementSampleCounter % p.measurementBufferSize
    let row ← throwOnError "Error updating profiling data: raw timings."
      (vectorCopy p.mCurrentData.data (p.mCurrentMeasurementBuffer.row currentRowIdx)
        p.numberOfComponents cVectorAlignmentSamples)
    .ok { p with mCurrentMeasurementBuffer :=
      p.mCurrentMeasurementBuffer.storeRow currentRowIdx p.numberOfComponents row }
  else .ok p

def finishIteration (p : RuntimeProfiler K) : Except Exception (RuntimeProfiler K) := do
  let p ← p.updateStatistics
  let p ← p.storeMeasurement
  .ok { p with
    mStatisticsSampleCounter := increment p.mStatisticsSampleCounter
    mMeasurementSampleCounter := increment p.mMeasurementSampleCounter }

def resetMeasurements (p : RuntimeProfiler K) : RuntimeProfiler K :=
  { p with mMeasurementSampleCounter := 0 }

def resetStatistics (p : RuntimeProfiler K) : Except Exception (RuntimeProfiler K) := do
  let mRunningMean ← p.mRunningMean.zeroFill
  let mRunningM2 ← p.mRunningM2.zeroFill
  .ok { p with
    mStatisticsSampleCounter := 0
    mRunningMean := mRunningMean
    mRunningM2 := mRunningM2 }

/-! ### Queries

The elements of the vectors that are returned are numbers or `NaN`, which is `none` here. -/

/-- The numbers that are written into a vector.  What was in it before does not matter. -/
def storeNumbers (ret : Efl.BasicVector (Option K)) (numElements : ℕ) (values : ℕ → K) :
    Efl.BasicVector (Option K) :=
  ret.setData fun idx => if idx < numElements then some (values idx) else ret.get idx

def calculateVariance (p : RuntimeProfiler K) (ret : Efl.BasicVector (Option K)) :
    Except Exception (Efl.BasicVector (Option K)) :=
  if p.mStatisticsSampleCounter < 2 then ret.fillValue none
  else do
    let scaleFactor : K := 1 / (p.mStatisticsSampleCounter - 1 : ℕ)
    let values ← throwOnError "Error computing variance."
      (vectorMultiplyConstant scaleFactor p.mRunningM2.data
        (ret.map fun value => value.getD 0).data p.numberOfComponents 0)
    .ok (storeNumbers ret p.numberOfComponents values)

/-- The mean is copied in any case. -/
def getMean (p : RuntimeProfiler K) (val : Efl.BasicVector (Option K)) :
    Except Exception (Efl.BasicVector (Option K)) :=
  if val.size ≠ p.numberOfComponents then
    .error (.invalidArgument "Return value buffer has wrong size.")
  else do
    let val ← (if p.mStatisticsSampleCounter < 1 then val.fillValue none else .ok val)
    val.copy (p.mRunningMean.map some)

def getVariance (p : RuntimeProfiler K) (val : Efl.BasicVector (Option K)) :
    Except Exception (Efl.BasicVector (Option K)) :=
  if val.size ≠ p.numberOfComponents then
    .error (.invalidArgument "Return value buffer has wrong size.")
  else p.calculateVariance val

/-- The checks of `getStatistics()` and `getAndResetStatistics()`. -/
def checkSizes (p : RuntimeProfiler K) (mean variance : Efl.BasicVector (Option K)) :
    Except Exception Unit :=
  if mean.size ≠ p.numberOfComponents then
    .error (.invalidArgument
      "Size of \"mean\" buffer does not match number of profiled components.")
  else if variance.size ≠ p.numberOfComponents then
    .error (.invalidArgument
      "Size of \"variance\" buffer does not match number of profiled components.")
  else .ok ()

def getStatistics (p : RuntimeProfiler K) (mean variance : Efl.BasicVector (Option K)) :
    Except Exception (ℕ × Efl.BasicVector (Option K) × Efl.BasicVector (Option K)) := do
  p.checkSizes mean variance
  let mean ← mean.copy (p.mRunningMean.map some)
  let variance ← p.calculateVariance variance
  .ok (p.mStatisticsSampleCounter, mean, variance)

def getAndResetStatistics (p : RuntimeProfiler K) (mean variance : Efl.BasicVector (Option K)) :
    Except Exception
      ((ℕ × Efl.BasicVector (Option K) × Efl.BasicVector (Option K)) × RuntimeProfiler K) := do
  p.checkSizes mean variance
  let numCycles := p.mStatisticsSampleCounter
  let mean ← mean.copy (p.mRunningMean.map some)
  let variance ← p.calculateVariance variance
  let mRunningMean ← p.mRunningMean.zeroFill
  let mRunningM2 ← p.mRunningM2.zeroFill
  .ok ((numCycles, mean, variance), { p with
    mStatisticsSampleCounter := 0
    mRunningMean := mRunningMean
    mRunningM2 := mRunningM2 })

/-- The number of iterations, and the buffer with their times. -/
def getMeasurements (p : RuntimeProfiler K) :
    Except Exception ((ℕ × Efl.BasicMatrix K) × RuntimeProfiler K) := do
  let numIterations := p.mMeasurementSampleCounter
  let (mBackMeasurementBuffer, mCurrentMeasurementBuffer) ←
    p.mBackMeasurementBuffer.swap p.mCurrentMeasurementBuffer
  .ok ((numIterations, mBackMeasurementBuffer), { p with
    mMeasurementSampleCounter := 0
    mCurrentMeasurementBuffer := mCurrentMeasurementBuffer
    mBackMeasurementBuffer := mBackMeasurementBuffer })

end Operations

/-! ### Sequences of calls -/

/-- The calls, with the vectors that are to be filled. -/
inductive Call (K : Type)
  | setTime (componentIdx : ℕ) (timing : K)
  | finishIteration
  | resetMeasurements
  | resetStatistics
  | getStatistics (mean variance : Efl.BasicVector (Option K))
  | getAndResetStatistics (mean variance : Efl.BasicVector (Option K))
  | getMeasurements
  | getMean (val : Efl.BasicVector (Option K))
  | getVariance (val : Efl.BasicVector (Option K))

/-- What a call returns. -/
inductive Result (K : Type)
  | done
  | statistics (count : ℕ) (mean variance : Efl.BasicVector (Option K))
  | measurements (numIterations : ℕ) (buffer : Efl.BasicMatrix K)
  | values (val : Efl.BasicVector (Option K))

section Sessions

variable {K : Type} [Field K]

def call (p : RuntimeProfiler K) : Call K → Except Exception (Result K × RuntimeProfiler K)
  | .setTime componentIdx timing => do
    let p ← p.setTime componentIdx timing
    .ok (.done, p)
  | .finishIteration => do
    let p ← p.finishIteration
    .ok (.done, p)
  | .resetMeasurements => .ok (.done, p.resetMeasurements)
  | .resetStatistics => do
    let p ← p.resetStatistics
    .ok (.done, p)
  | .getStatistics mean variance => do
    let (count, mean, variance) ← p.getStatistics mean variance
    .ok (.statistics count mean variance, p)
  | .getAndResetStatistics mean variance => do
    let ((count, mean, variance), p) ← p.getAndResetStatistics mean variance
    .ok (.statistics count mean variance, p)
  | .getMeasurements => do
    let ((numIterations, buffer), p) ← p.getMeasurements
    .ok (.measurements numIterations buffer, p)
  | .getMean val => do
    let val ← p.getMean val
    .ok (.values val, p)
  | .getVariance val => do
    let val ← p.getVariance val
    .ok (.values val, p)

/-- A profiler together with the times of the current iteration, and those of the iterations since
the last reset of the statistics and since the last reset or retrieval of the measurements. -/
structure Session (K : Type) where
  profiler : RuntimeProfiler K
  current : ℕ → K
  statistics : List (ℕ → K)
  measurements : List (ℕ → K)

namespace Session

def start (K : Type) [Field K] (numberOfComponents measureBufferSize : ℕ) : Session K :=
  ⟨create K numberOfComponents measureBufferSize, fun _ => 0, [], []⟩

/-- The times of one component that the statistics are about. -/
def timings (s : Session K) (idx : ℕ) : List K := s.statistics.map fun timing => timing idx

/-- After a call that throws an exception, everything is as before. -/
def step (c : Call K) (s : Session K) : Option (Session K) :=
  match s.profiler.call c with
  | .error _ => some s
  | .ok (_, p) =>
    some (match c with
      | .setTime componentIdx timing =>
        { s with
          profiler := p
          current := fun idx => if idx = componentIdx then timing else s.current idx }
      | .finishIteration =>
        { s with
          profiler := p
          statistics := s.statistics ++ [s.current]
          measurements := s.measurements ++ [s.current] }
      | .resetMeasurements | .getMeasurements => { s with profiler := p, measurements := [] }
      | .resetStatistics | .getAndResetStatistics _ _ => { s with profiler := p, statistics := [] }
      | .getStatistics _ _ | .getMean _ | .getVariance _ => { s with profiler := p })

/-- A vector that holds the means of all components. -/
def ReportsMean (s : Session K) (numberOfComponents : ℕ) (val : Efl.BasicVector (Option K)) :
    Prop :=
  val.size = numberOfComponents ∧
    ∀ idx < numberOfComponents, val.get idx = some (mean (s.timings idx))

/-- A vector that holds the variances of all components, or `NaN`. -/
def ReportsVariance (s : Session K) (numberOfComponents : ℕ) (val : Efl.BasicVector (Option K)) :
    Prop :=
  val.size = numberOfComponents ∧ ∀ idx < numberOfComponents,
    val.get idx = if s.statistics.length < 2 then none else some (sampleVariance (s.timings idx))

end Session

/-- What a call is meant to do. -/
def ConformsAt (numberOfComponents measureBufferSize : ℕ) (c : Call K) (s : Session K) : Prop :=
  match c with
  | .setTime componentIdx _ =>
    if componentIdx < numberOfComponents then ∃ p, s.profiler.call c = .ok (.done, p)
    else ∃ what, s.profiler.call c = .error (.outOfRange what)
  | .finishIteration => ∃ p, s.profiler.call c = .ok (.done, p) ∧
    p.statisticsSamples = s.statistics.length + 1 ∧
    p.measurementSamples = s.measurements.length + 1
  | .resetMeasurements | .resetStatistics => ∃ p, s.profiler.call c = .ok (.done, p)
  | .getStatistics mean variance | .getAndResetStatistics mean variance =>
    if mean.size = numberOfComponents ∧ variance.size = numberOfComponents then
      ∃ mean variance p,
        s.profiler.call c = .ok (.statistics s.statistics.length mean variance, p) ∧
        (1 ≤ s.statistics.length → s.ReportsMean numberOfComponents mean) ∧
        s.ReportsVariance numberOfComponents variance
    else ∃ what, s.profiler.call c = .error (.invalidArgument what)
  | .getMeasurements => ∃ buffer p,
    s.profiler.call c = .ok (.measurements s.measurements.length buffer, p) ∧
    buffer.numberOfRows = measureBufferSize ∧ buffer.numberOfColumns = numberOfComponents ∧
    ∀ i timing, s.measurements[i]? = some timing →
      s.measurements.length - min s.measurements.length measureBufferSize ≤ i →
      ∀ idx < numberOfComponents, buffer.get (i % measureBufferSize) idx = timing idx
  | .getMean val =>
    if val.size = numberOfComponents then
      ∃ val p, s.profiler.call c = .ok (.values val, p) ∧
        if s.statistics.length < 1 then
          val.size = numberOfComponents ∧ ∀ idx < numberOfComponents, val.get idx = none
        else s.ReportsMean numberOfComponents val
    else ∃ what, s.profiler.call c = .error (.invalidArgument what)
  | .getVariance val =>
    if val.size = numberOfComponents then
      ∃ val p, s.profiler.call c = .ok (.values val, p) ∧ s.ReportsVariance numberOfComponents val
    else ∃ what, s.profiler.call c = .error (.invalidArgument what)

/-- There are times, unless there are no components; and the counters do not overflow. -/
def Fits (numberOfComponents : ℕ) (c : Call K) (s : Session K) : Prop :=
  match c with
  | .getMean val => val.size = numberOfComponents → numberOfComponents = 0 ∨ 1 ≤ s.statistics.length
  | .finishIteration => s.statistics.length + 1 < 2 ^ 64 ∧ s.measurements.length + 1 < 2 ^ 64
  | _ => True

end Sessions

/-! ### The parts of an iteration -/

/-- The sizes and the alignments that the constructor has chosen. -/
structure Layout {K : Type} (numberOfComponents measureBufferSize : ℕ) (p : RuntimeProfiler K) :
    Prop where
  components : p.cNumberOfAtomicComponents = numberOfComponents
  currentData : p.mCurrentData.HasLayout numberOfComponents
  runningMean : p.mRunningMean.HasLayout numberOfComponents
  runningM2 : p.mRunningM2.HasLayout numberOfComponents
  tmpBuffer : p.mTmpBuffer.HasLayout numberOfComponents
  tmpBuffer2 : p.mTmpBuffer2.HasLayout numberOfComponents
  currentBuffer : p.mCurrentMeasurementBuffer.HasLayout measureBufferSize numberOfComponents
  backBuffer : p.mBackMeasurementBuffer.HasLayout measureBufferSize numberOfComponents

/-- Other contents of the vectors for the statistics. -/
def setStatistics {K : Type} (p : RuntimeProfiler K) (mean M2 tmp tmp2 : ℕ → K) :
    RuntimeProfiler K :=
  { p with
    mRunningMean := p.mRunningMean.setData mean
    mRunningM2 := p.mRunningM2.setData M2
    mTmpBuffer := p.mTmpBuffer.setData tmp
    mTmpBuffer2 := p.mTmpBuffer2.setData tmp2 }

section Parts

variable {K : Type} {N B : ℕ} {p : RuntimeProfiler K}

theorem Layout.setStatistics (h : Layout N B p) (mean M2 tmp tmp2 : ℕ → K) :
    Layout N B (p.setStatistics mean M2 tmp tmp2) :=
  { h with
    runningMean := h.runningMean.setData mean
    runningM2 := h.runningM2.setData M2
    tmpBuffer := h.tmpBuffer.setData tmp
    tmpBuffer2 := h.tmpBuffer2.setData tmp2 }

theorem increment_of_lt {counter : ℕ} (h : counter + 1 < 2 ^ 64) :
    increment counter = counter + 1 := Nat.mod_eq_of_lt h

/-- The first iteration only has a mean. -/
theorem updateStatistics_first [Field K] (h : Layout N B p)
    (hcount : p.mStatisticsSampleCounter = 0) :
    ∃ mean, p.updateStatistics = .ok (p.setStatistics mean p.mRunningM2.get p.mTmpBuffer.get
        p.mTmpBuffer2.get) ∧
      ∀ idx < N, mean idx = p.mCurrentData.get idx := by
  unfold updateStatistics
  rw [if_pos hcount, vectorCopy_of_aligned _ h.currentData.aligned h.runningMean.aligned]
  exact ⟨_, rfl, fun idx hidx => if_pos (hidx.trans_eq h.components.symm)⟩

/-- Another iteration: the operations on vectors, element by element. -/
theorem updateStatistics_next [Field K] (h : Layout N B p)
    (hcount : p.mStatisticsSampleCounter ≠ 0) :
    ∃ mean M2 tmp tmp2, p.updateStatistics = .ok (p.setStatistics mean M2 tmp tmp2) ∧
      ∀ idx < N,
        mean idx = p.mRunningMean.get idx + 1 / (increment p.mStatisticsSampleCounter : ℕ) *
          (p.mCurrentData.get idx - p.mRunningMean.get idx) ∧
        M2 idx = p.mRunningM2.get idx + (p.mCurrentData.get idx - p.mRunningMean.get idx) *
          (p.mCurrentData.get idx - mean idx) := by
  have hdata := h.currentData.aligned
  have hmean := h.runningMean.aligned
  have htmp2 := h.tmpBuffer2.aligned
  unfold updateStatistics
  rw [if_neg hcount, vectorSubtract_of_aligned _ hdata hmean h.tmpBuffer.aligned, throwOnError_ok,
    ok_bind]
  dsimp only
  rw [vectorMultiplyConstant_of_aligned _ _ (h.tmpBuffer.setData _).aligned htmp2,
    throwOnError_ok, ok_bind]
  rw [vectorAddInplace_of_aligned _ (h.tmpBuffer2.setData _).aligned hmean, throwOnError_ok,
    ok_bind]
  rw [vectorSubtract_of_aligned _ hdata (h.runningMean.setData _).aligned
    (h.tmpBuffer2.setData _).aligned, throwOnError_ok, ok_bind]
  rw [vectorMultiplyAddInplace_of_aligned _ (h.tmpBuffer.setData _).aligned
    ((h.tmpBuffer2.setData _).setData _).aligned h.runningM2.aligned, throwOnError_ok, ok_bind]
  refine ⟨_, _, _, _, rfl, fun idx hidx => ?_⟩
  have hlt : idx < p.numberOfComponents := hidx.trans_eq h.components.symm
  simp only [Efl.BasicVector.data_setData, if_pos hlt]
  exact ⟨rfl, rfl⟩

/-- The times are stored in a row, unless there is no buffer. -/
theorem storeMeasurement_spec (h : Layout N B p) :
    ∃ buffer, p.storeMeasurement = .ok { p with mCurrentMeasurementBuffer := buffer } ∧
      buffer.HasLayout B N ∧ ∀ idx < N,
        (B ≠ 0 → buffer.get (p.mMeasurementSampleCounter % B) idx = p.mCurrentData.get idx) ∧
        ∀ row ≠ p.mMeasurementSampleCounter % B,
          buffer.get row idx = p.mCurrentMeasurementBuffer.get row idx := by
  have hrows : p.measurementBufferSize = B := h.currentBuffer.1
  have hcomponents : p.numberOfComponents = N := h.components
  have hcolumns : p.mCurrentMeasurementBuffer.numberOfColumns = N := h.currentBuffer.2.1
  unfold storeMeasurement
  dsimp only
  rw [hrows, hcomponents]
  split
  next hne =>
    rw [vectorCopy_of_aligned _ h.currentData.aligned (h.currentBuffer.row_aligned _),
      throwOnError_ok, ok_bind]
    refine ⟨_, rfl, h.currentBuffer.storeRow _ _ _, fun idx hidx => ⟨?_, fun row hrow => ?_⟩⟩
    · intro
      rw [Efl.BasicMatrix.get_storeRow_self _ _ _ hidx, if_pos hidx]
      rfl
    · rw [← hcolumns]
      exact Efl.BasicMatrix.get_storeRow_of_ne _ _ hrow (hidx.trans_eq hcolumns.symm)
  next hzero =>
    exact ⟨_, rfl, h.currentBuffer, fun _ _ => ⟨fun hne => absurd hne hzero, fun _ _ => rfl⟩⟩

theorem calculateVariance_spec [Field K] (h : Layout N B p) {ret : Efl.BasicVector (Option K)}
    (hret : ret.size = N) :
    ∃ variance, p.calculateVariance ret = .ok variance ∧ variance.size = N ∧ ∀ idx < N,
      variance.get idx = if p.mStatisticsSampleCounter < 2 then none
        else some (1 / (p.mStatisticsSampleCounter - 1 : ℕ) * p.mRunningM2.get idx) := by
  unfold calculateVariance
  split
  next hlt =>
    rw [Efl.BasicVector.fillValue_eq]
    exact ⟨_, rfl, hret, fun idx hidx => if_pos (hidx.trans_eq hret.symm)⟩
  next hge =>
    have hany : ∀ address, checkAlignment address 0 = true := fun _ => rfl
    dsimp only
    rw [vectorMultiplyConstant_of_aligned _ _ (hany _) (hany _), throwOnError_ok, ok_bind]
    refine ⟨_, rfl, hret, fun idx hidx => ?_⟩
    have hlt : idx < p.numberOfComponents := hidx.trans_eq h.components.symm
    rw [storeNumbers, Efl.BasicVector.get_setData, if_pos hlt, if_pos hlt]
    rfl

theorem copyMean_spec (h : Layout N B p) {ret : Efl.BasicVector (Option K)} (hret : ret.size = N) :
    ∃ mean, ret.copy (p.mRunningMean.map some) = .ok mean ∧ mean.size = N ∧
      ∀ idx < N, mean.get idx = some (p.mRunningMean.get idx) := by
  have hsize : (p.mRunningMean.map some).size = N := h.runningMean.1
  obtain ⟨mean, hok, hmean, hvalues⟩ := Efl.BasicVector.copy_spec (hret.trans hsize.symm)
  exact ⟨mean, hok, hmean.trans hsize, fun idx hidx => hvalues idx (hidx.trans_eq hsize.symm)⟩

theorem getMean_spec (h : Layout N B p) {val : Efl.BasicVector (Option K)} (hval : val.size = N) :
    ∃ mean, p.getMean val = .ok mean ∧ mean.size = N ∧
      ∀ idx < N, mean.get idx = some (p.mRunningMean.get idx) := by
  have hcomponents : p.numberOfComponents = N := h.components
  unfold getMean
  rw [hcomponents, if_neg (not_not.mpr hval)]
  -- what has been filled before is overwritten
  split
  next => exact copyMean_spec h ((Efl.BasicVector.size_setData val _).trans hval)
  next => exact copyMean_spec h hval

theorem checkSizes_eq (h : Layout N B p) {mean variance : Efl.BasicVector (Option K)}
    (hmean : mean.size = N) (hvariance : variance.size = N) :
    p.checkSizes mean variance = .ok () := by
  have hcomponents : p.numberOfComponents = N := h.components
  rw [checkSizes, hcomponents, if_neg (not_not.mpr hmean), if_neg (not_not.mpr hvariance)]

theorem checkSizes_error (h : Layout N B p) {mean variance : Efl.BasicVector (Option K)}
    (hsizes : ¬(mean.size = N ∧ variance.size = N)) :
    ∃ what, p.checkSizes mean variance = .error (.invalidArgument what) := by
  have hcomponents : p.numberOfComponents = N := h.components
  rw [checkSizes, hcomponents]
  split
  next => exact ⟨_, rfl⟩
  next hmean =>
    rw [if_pos fun hvariance => hsizes ⟨not_not.mp hmean, hvariance⟩]
    exact ⟨_, rfl⟩

end Parts

/-! ### The invariant -/

section Invariant

variable {K : Type} [Field K] {N B : ℕ} {s : Session K}

/-- The statistics are those of the times since the last reset, and the rows hold the last of the
times since the other one. -/
structure Inv (N B : ℕ) (s : Session K) : Prop where
  layout : Layout N B s.profiler
  current : ∀ idx < N, s.profiler.mCurrentData.get idx = s.current idx
  statisticsCount : s.profiler.mStatisticsSampleCounter = s.statistics.length
  measurementCount : s.profiler.mMeasurementSampleCounter = s.measurements.length
  mean_eq : ∀ idx < N, s.profiler.mRunningMean.get idx = mean (s.timings idx)
  M2_eq : ∀ idx < N, s.profiler.mRunningM2.get idx = squaredDeviations (s.timings idx)
  rows : ∀ i timing, s.measurements[i]? = some timing → s.measurements.length ≤ i + B →
    ∀ idx < N, s.profiler.mCurrentMeasurementBuffer.get (i % B) idx = timing idx

theorem inv_start (N B : ℕ) : Inv N B (Session.start K N B) where
  layout :=
    { components := rfl
      currentData := Efl.BasicVector.hasLayout_zeros K N
      runningMean := Efl.BasicVector.hasLayout_zeros K N
      runningM2 := Efl.BasicVector.hasLayout_zeros K N
      tmpBuffer := Efl.BasicVector.hasLayout_zeros K N
      tmpBuffer2 := Efl.BasicVector.hasLayout_zeros K N
      currentBuffer := Efl.BasicMatrix.hasLayout_zeros K B N
      backBuffer := Efl.BasicMatrix.hasLayout_zeros K B N }
  current _ _ := rfl
  statisticsCount := rfl
  measurementCount := rfl
  mean_eq _ _ := mean_nil.symm
  M2_eq _ _ := rfl
  rows i timing htiming := by cases htiming

namespace Inv

omit [Field K] in
/-- The times of a component including those of the current iteration. -/
theorem timings_concat (s : Session K) (p : RuntimeProfiler K) (measurements : List (ℕ → K))
    (idx : ℕ) :
    (Session.timings ⟨p, s.current, s.statistics ++ [s.current], measurements⟩ idx) =
      s.timings idx ++ [s.current idx] := List.map_append

section Iterations

variable [CharZero K]

/-- **The updated statistics** are those of all times. -/
theorem updateStatistics (h : Inv N B s) (hcount : s.statistics.length + 1 < 2 ^ 64) :
    ∃ newMean M2 tmp tmp2,
      s.profiler.updateStatistics = .ok (s.profiler.setStatistics newMean M2 tmp tmp2) ∧
      ∀ idx < N, newMean idx = mean (s.timings idx ++ [s.current idx]) ∧
        M2 idx = squaredDeviations (s.timings idx ++ [s.current idx]) := by
  have hlength : ∀ idx, (s.timings idx).length = s.statistics.length := fun idx => List.length_map _
  by_cases hfirst : s.statistics.length = 0
  · obtain ⟨newMean, hok, hvalues⟩ := updateStatistics_first h.layout
      (h.statisticsCount.trans hfirst)
    refine ⟨newMean, _, _, _, hok, fun idx hidx => ?_⟩
    have hnil : s.timings idx = [] := List.eq_nil_of_length_eq_zero ((hlength idx).trans hfirst)
    rw [hvalues idx hidx, h.M2_eq idx hidx, h.current idx hidx, hnil, List.nil_append,
      mean_singleton, squaredDeviations_singleton]
    exact ⟨rfl, rfl⟩
  · obtain ⟨newMean, M2, tmp, tmp2, hok, hvalues⟩ := updateStatistics_next h.layout
      (h.statisticsCount ▸ hfirst)
    refine ⟨newMean, M2, tmp, tmp2, hok, fun idx hidx => ?_⟩
    obtain ⟨hmean, hM2⟩ := hvalues idx hidx
    rw [h.statisticsCount, increment_of_lt hcount, h.current idx hidx, h.mean_eq idx hidx,
      ← hlength idx] at hmean
    have hnew : newMean idx = mean (s.timings idx ++ [s.current idx]) :=
      hmean.trans (mean_concat _ _).symm
    refine ⟨hnew, ?_⟩
    rw [hM2, hnew, h.M2_eq idx hidx, h.current idx hidx, h.mean_eq idx hidx,
      squaredDeviations_concat]

/-- A row that is not overwritten in this iteration. -/
theorem row_ne {i n B : ℕ} (hi : i < n) (hB : n < i + B) : i % B ≠ n % B := by
  intro heq
  have hdvd := Nat.dvd_of_mod_eq_zero (Nat.sub_mod_eq_zero_of_mod_eq heq.symm)
  have hle := Nat.le_of_dvd (by omega) hdvd
  omega

omit [CharZero K] in
/-- The rows after one of them has been overwritten. -/
theorem rows_concat (h : Inv N B s) {buffer : Efl.BasicMatrix K}
    (hrows : ∀ idx < N,
      (B ≠ 0 → buffer.get (s.profiler.mMeasurementSampleCounter % B) idx =
        s.profiler.mCurrentData.get idx) ∧
      ∀ row ≠ s.profiler.mMeasurementSampleCounter % B,
        buffer.get row idx = s.profiler.mCurrentMeasurementBuffer.get row idx)
    (i : ℕ) (timing : ℕ → K) (htiming : (s.measurements ++ [s.current])[i]? = some timing)
    (hlast : (s.measurements ++ [s.current]).length ≤ i + B) (idx : ℕ) (hidx : idx < N) :
    buffer.get (i % B) idx = timing idx := by
  obtain ⟨hwritten, hothers⟩ := hrows idx hidx
  rw [h.measurementCount] at hwritten hothers
  have hi := (List.getElem?_eq_some_iff.mp htiming).1
  rw [List.length_append, List.length_singleton] at hi hlast
  rcases Nat.lt_succ_iff_lt_or_eq.mp hi with hlt | rfl
  · rw [hothers _ (row_ne hlt (by omega))]
    rw [List.getElem?_append_left hlt] at htiming
    exact h.rows i timing htiming (by omega) idx hidx
  · rw [List.getElem?_concat_length] at htiming
    cases htiming
    exact (hwritten (by omega)).trans (h.current idx hidx)

/-- **One iteration.** -/
theorem finishIteration (h : Inv N B s) (hstatistics : s.statistics.length + 1 < 2 ^ 64)
    (hmeasurements : s.measurements.length + 1 < 2 ^ 64) :
    ∃ p, s.profiler.finishIteration = .ok p ∧
      Inv N B ⟨p, s.current, s.statistics ++ [s.current], s.measurements ++ [s.current]⟩ := by
  obtain ⟨newMean, M2, tmp, tmp2, hupdate, hvalues⟩ := h.updateStatistics hstatistics
  obtain ⟨buffer, hstore, hbuffer, hrows⟩ :=
    storeMeasurement_spec (h.layout.setStatistics newMean M2 tmp tmp2)
  have hok : s.profiler.finishIteration = .ok
      { s.profiler.setStatistics newMean M2 tmp tmp2 with
        mCurrentMeasurementBuffer := buffer
        mStatisticsSampleCounter := increment s.profiler.mStatisticsSampleCounter
        mMeasurementSampleCounter := increment s.profiler.mMeasurementSampleCounter } := by
    rw [RuntimeProfiler.finishIteration, hupdate, ok_bind, hstore, ok_bind]
    rfl
  refine ⟨_, hok, ?_⟩
  have hlayout := h.layout.setStatistics newMean M2 tmp tmp2
  exact
    { layout := { hlayout with currentBuffer := hbuffer }
      current := h.current
      statisticsCount := by
        rw [List.length_append, ← h.statisticsCount]
        exact increment_of_lt (h.statisticsCount ▸ hstatistics)
      measurementCount := by
        rw [List.length_append, ← h.measurementCount]
        exact increment_of_lt (h.measurementCount ▸ hmeasurements)
      mean_eq idx hidx := by
        rw [timings_concat]
        exact (hvalues idx hidx).1
      M2_eq idx hidx := by
        rw [timings_concat]
        exact (hvalues idx hidx).2
      rows := h.rows_concat hrows }

end Iterations

/-! ### Other calls -/

theorem setTime (h : Inv N B s) (componentIdx : ℕ) (timing : K) :
    Inv N B ⟨{ s.profiler with mCurrentData := s.profiler.mCurrentData.set componentIdx timing },
      fun idx => if idx = componentIdx then timing else s.current idx, s.statistics,
      s.measurements⟩ where
  layout := { h.layout with currentData := h.layout.currentData.setData _ }
  current idx hidx :=
    congrArg (fun old => if idx = componentIdx then timing else old) (h.current idx hidx)
  statisticsCount := h.statisticsCount
  measurementCount := h.measurementCount
  mean_eq := h.mean_eq
  M2_eq := h.M2_eq
  rows := h.rows

theorem resetMeasurements (h : Inv N B s) :
    Inv N B ⟨s.profiler.resetMeasurements, s.current, s.statistics, []⟩ where
  layout := { h.layout with }
  current := h.current
  statisticsCount := h.statisticsCount
  measurementCount := rfl
  mean_eq := h.mean_eq
  M2_eq := h.M2_eq
  rows i timing htiming := by cases htiming

/-- The buffers are exchanged; no row has been written since then. -/
theorem getMeasurements (h : Inv N B s) :
    ∃ p, s.profiler.getMeasurements =
        .ok ((s.measurements.length, s.profiler.mCurrentMeasurementBuffer), p) ∧
      Inv N B ⟨p, s.current, s.statistics, []⟩ := by
  unfold RuntimeProfiler.getMeasurements
  dsimp only
  rw [h.layout.backBuffer.swap_eq h.layout.currentBuffer, h.measurementCount]
  exact ⟨_, rfl,
    { layout := { h.layout with
        currentBuffer := h.layout.backBuffer
        backBuffer := h.layout.currentBuffer }
      current := h.current
      statisticsCount := h.statisticsCount
      measurementCount := rfl
      mean_eq := h.mean_eq
      M2_eq := h.M2_eq
      rows := fun i timing htiming => by cases htiming }⟩

theorem resetStatistics (h : Inv N B s) :
    ∃ p, s.profiler.resetStatistics = .ok p ∧ Inv N B ⟨p, s.current, [], s.measurements⟩ := by
  unfold RuntimeProfiler.resetStatistics
  rw [Efl.BasicVector.zeroFill_eq, ok_bind, Efl.BasicVector.zeroFill_eq, ok_bind]
  exact ⟨_, rfl,
    { layout := { h.layout with
        runningMean := h.layout.runningMean.setData _
        runningM2 := h.layout.runningM2.setData _ }
      current := h.current
      statisticsCount := rfl
      measurementCount := h.measurementCount
      mean_eq := fun idx hidx =>
        (if_pos (hidx.trans_eq h.layout.runningMean.1.symm)).trans mean_nil.symm
      M2_eq := fun idx hidx => if_pos (hidx.trans_eq h.layout.runningM2.1.symm)
      rows := h.rows }⟩

/-! ### Reports -/

theorem reportsMean (h : Inv N B s) {val : Efl.BasicVector (Option K)} (hsize : val.size = N)
    (hvalues : ∀ idx < N, val.get idx = some (s.profiler.mRunningMean.get idx)) :
    s.ReportsMean N val :=
  ⟨hsize, fun idx hidx => by rw [hvalues idx hidx, h.mean_eq idx hidx]⟩

/-- The scaled sum of squares is the variance. -/
theorem reportsVariance (h : Inv N B s) {val : Efl.BasicVector (Option K)} (hsize : val.size = N)
    (hvalues : ∀ idx < N, val.get idx = if s.profiler.mStatisticsSampleCounter < 2 then none
      else some (1 / (s.profiler.mStatisticsSampleCounter - 1 : ℕ) *
        s.profiler.mRunningM2.get idx)) :
    s.ReportsVariance N val := by
  refine ⟨hsize, fun idx hidx => ?_⟩
  rw [hvalues idx hidx, h.statisticsCount, h.M2_eq idx hidx]
  split
  next => rfl
  next hge =>
    have hlength : (s.timings idx).length = s.statistics.length := List.length_map _
    rw [sampleVariance, hlength, Nat.cast_pred (by omega), div_eq_mul_inv 1, one_mul,
      div_eq_inv_mul]

/-- Vectors of another size are refused. -/
theorem getStatistics_error (h : Inv N B s) {mean variance : Efl.BasicVector (Option K)}
    (hsizes : ¬(mean.size = N ∧ variance.size = N)) :
    ∃ what, s.profiler.getStatistics mean variance = .error (.invalidArgument what) ∧
      s.profiler.getAndResetStatistics mean variance = .error (.invalidArgument what) := by
  obtain ⟨what, hwhat⟩ := checkSizes_error h.layout hsizes
  refine ⟨what, ?_, ?_⟩
  · rw [RuntimeProfiler.getStatistics, hwhat]
    rfl
  · rw [RuntimeProfiler.getAndResetStatistics, hwhat]
    rfl

theorem getStatistics (h : Inv N B s) {mean variance : Efl.BasicVector (Option K)}
    (hmean : mean.size = N) (hvariance : variance.size = N) :
    ∃ mean' variance', s.profiler.getStatistics mean variance =
        .ok (s.statistics.length, mean', variance') ∧
      s.ReportsMean N mean' ∧ s.ReportsVariance N variance' := by
  obtain ⟨mean', hcopy, hsize, hvalues⟩ := copyMean_spec h.layout hmean
  obtain ⟨variance', hcalculate, hsize', hvalues'⟩ := calculateVariance_spec h.layout hvariance
  refine ⟨mean', variance', ?_, h.reportsMean hsize hvalues, h.reportsVariance hsize' hvalues'⟩
  unfold RuntimeProfiler.getStatistics
  rw [checkSizes_eq h.layout hmean hvariance, ok_bind, hcopy, ok_bind, hcalculate, ok_bind,
    h.statisticsCount]

/-- The statistics are reset after they have been reported. -/
theorem getAndResetStatistics (h : Inv N B s) {mean variance : Efl.BasicVector (Option K)}
    (hmean : mean.size = N) (hvariance : variance.size = N) :
    ∃ mean' variance' p, s.profiler.getAndResetStatistics mean variance =
        .ok ((s.statistics.length, mean', variance'), p) ∧
      s.ReportsMean N mean' ∧ s.ReportsVariance N variance' ∧
      Inv N B ⟨p, s.current, [], s.measurements⟩ := by
  obtain ⟨mean', hcopy, hsize, hvalues⟩ := copyMean_spec h.layout hmean
  obtain ⟨variance', hcalculate, hsize', hvalues'⟩ := calculateVariance_spec h.layout hvariance
  obtain ⟨p, hreset, hinv⟩ := h.resetStatistics
  refine ⟨mean', variance', p, ?_, h.reportsMean hsize hvalues, h.reportsVariance hsize' hvalues',
    hinv⟩
  unfold RuntimeProfiler.resetStatistics at hreset
  unfold RuntimeProfiler.getAndResetStatistics
  rw [checkSizes_eq h.layout hmean hvariance, ok_bind, hcopy, ok_bind, hcalculate, ok_bind]
  rw [Efl.BasicVector.zeroFill_eq, ok_bind, Efl.BasicVector.zeroFill_eq, ok_bind] at hreset ⊢
  rw [h.statisticsCount, ← Except.ok.inj hreset]

theorem getVariance (h : Inv N B s) {val : Efl.BasicVector (Option K)} (hval : val.size = N) :
    ∃ val', s.profiler.getVariance val = .ok val' ∧ s.ReportsVariance N val' := by
  obtain ⟨val', hcalculate, hsize, hvalues⟩ := calculateVariance_spec h.layout hval
  have hcomponents : s.profiler.numberOfComponents = N := h.layout.components
  refine ⟨val', ?_, h.reportsVariance hsize hvalues⟩
  rw [RuntimeProfiler.getVariance, hcomponents, if_neg (not_not.mpr hval), hcalculate]

/-- The mean, if there are times or no components. -/
theorem getMean (h : Inv N B s) {val : Efl.BasicVector (Option K)} (hval : val.size = N)
    (hfits : N = 0 ∨ 1 ≤ s.statistics.length) :
    ∃ val', s.profiler.getMean val = .ok val' ∧
      if s.statistics.length < 1 then val'.size = N ∧ ∀ idx < N, val'.get idx = none
      else s.ReportsMean N val' := by
  obtain ⟨val', hok, hsize, hvalues⟩ := getMean_spec h.layout hval
  refine ⟨val', hok, ?_⟩
  split
  next hnone =>
    have hzero : N = 0 := hfits.resolve_right (by omega)
    exact ⟨hsize, fun idx hidx => absurd hidx (by omega)⟩
  next => exact h.reportsMean hsize hvalues

/-! ### Single calls -/

/-- A call that throws an exception changes nothing. -/
theorem of_error (h : Inv N B s) {c : Call K} {e : Exception} (hcall : s.profiler.call c = .error e)
    (s' : Session K) (hs' : s.step c = some s') : Inv N B s' := by
  rw [Session.step, hcall] at hs'
  cases hs'
  exact h

theorem conforms_setTime (h : Inv N B s) (componentIdx : ℕ) (timing : K) :
    ConformsAt N B (.setTime componentIdx timing) s ∧
      ∀ s', s.step (.setTime componentIdx timing) = some s' → Inv N B s' := by
  have hcomponents : s.profiler.numberOfComponents = N := h.layout.components
  unfold ConformsAt
  dsimp only
  split
  next hlt =>
    have hok : s.profiler.call (.setTime componentIdx timing) = .ok (.done, { s.profiler with
        mCurrentData := s.profiler.mCurrentData.set componentIdx timing }) := by
      rw [call, RuntimeProfiler.setTime, hcomponents, if_neg (Nat.not_le.mpr hlt), ok_bind]
    refine ⟨⟨_, hok⟩, fun s' hs' => ?_⟩
    rw [Session.step, hok] at hs'
    cases hs'
    exact h.setTime componentIdx timing
  next hge =>
    have herror : s.profiler.call (.setTime componentIdx timing) =
        .error (.outOfRange "Index exceeds number of components.") := by
      rw [call, RuntimeProfiler.setTime, hcomponents, if_pos (Nat.not_lt.mp hge)]
      rfl
    exact ⟨⟨_, herror⟩, h.of_error herror⟩

theorem conforms_finishIteration [CharZero K] (h : Inv N B s) (hfits : Fits N .finishIteration s) :
    ConformsAt N B .finishIteration s ∧
      ∀ s', s.step .finishIteration = some s' → Inv N B s' := by
  obtain ⟨p, hfinish, hinv⟩ := h.finishIteration hfits.1 hfits.2
  have hok : s.profiler.call .finishIteration = .ok (.done, p) := by
    rw [call, hfinish, ok_bind]
  refine ⟨⟨p, hok, ?_, ?_⟩, fun s' hs' => ?_⟩
  · exact hinv.statisticsCount.trans List.length_append
  · exact hinv.measurementCount.trans List.length_append
  · rw [Session.step, hok] at hs'
    cases hs'
    exact hinv

theorem conforms_getMeasurements (h : Inv N B s) :
    ConformsAt N B .getMeasurements s ∧
      ∀ s', s.step .getMeasurements = some s' → Inv N B s' := by
  obtain ⟨p, hget, hinv⟩ := h.getMeasurements
  have hok : s.profiler.call .getMeasurements =
      .ok (.measurements s.measurements.length s.profiler.mCurrentMeasurementBuffer, p) := by
    rw [call, hget, ok_bind]
  refine ⟨⟨_, p, hok, h.layout.currentBuffer.1, h.layout.currentBuffer.2.1, ?_⟩, fun s' hs' => ?_⟩
  · intro i timing htiming hlast
    have hi := (List.getElem?_eq_some_iff.mp htiming).1
    exact h.rows i timing htiming (by omega)
  · rw [Session.step, hok] at hs'
    cases hs'
    exact hinv

theorem conforms_getStatistics (h : Inv N B s) (mean variance : Efl.BasicVector (Option K)) :
    ConformsAt N B (.getStatistics mean variance) s ∧
      ∀ s', s.step (.getStatistics mean variance) = some s' → Inv N B s' := by
  unfold ConformsAt
  dsimp only
  split
  next hsizes =>
    obtain ⟨mean', variance', hget, hmean, hvariance⟩ := h.getStatistics hsizes.1 hsizes.2
    have hok : s.profiler.call (.getStatistics mean variance) =
        .ok (.statistics s.statistics.length mean' variance', s.profiler) := by
      rw [call, hget, ok_bind]
    refine ⟨⟨_, _, _, hok, fun _ => hmean, hvariance⟩, fun s' hs' => ?_⟩
    rw [Session.step, hok] at hs'
    cases hs'
    exact h
  next hsizes =>
    obtain ⟨what, hget, -⟩ := h.getStatistics_error hsizes
    have herror : s.profiler.call (.getStatistics mean variance) =
        .error (.invalidArgument what) := by
      rw [call, hget]
      rfl
    exact ⟨⟨_, herror⟩, h.of_error herror⟩

theorem conforms_getAndResetStatistics (h : Inv N B s)
    (mean variance : Efl.BasicVector (Option K)) :
    ConformsAt N B (.getAndResetStatistics mean variance) s ∧
      ∀ s', s.step (.getAndResetStatistics mean variance) = some s' → Inv N B s' := by
  unfold ConformsAt
  dsimp only
  split
  next hsizes =>
    obtain ⟨mean', variance', p, hget, hmean, hvariance, hinv⟩ :=
      h.getAndResetStatistics hsizes.1 hsizes.2
    have hok : s.profiler.call (.getAndResetStatistics mean variance) =
        .ok (.statistics s.statistics.length mean' variance', p) := by
      rw [call, hget, ok_bind]
    refine ⟨⟨_, _, _, hok, fun _ => hmean, hvariance⟩, fun s' hs' => ?_⟩
    rw [Session.step, hok] at hs'
    cases hs'
    exact hinv
  next hsizes =>
    obtain ⟨what, -, hget⟩ := h.getStatistics_error hsizes
    have herror : s.profiler.call (.getAndResetStatistics mean variance) =
        .error (.invalidArgument what) := by
      rw [call, hget]
      rfl
    exact ⟨⟨_, herror⟩, h.of_error herror⟩

theorem conforms_getMean (h : Inv N B s) (val : Efl.BasicVector (Option K))
    (hfits : Fits N (.getMean val) s) :
    ConformsAt N B (.getMean val) s ∧ ∀ s', s.step (.getMean val) = some s' → Inv N B s' := by
  have hcomponents : s.profiler.numberOfComponents = N := h.layout.components
  unfold ConformsAt
  dsimp only
  split
  next hsize =>
    obtain ⟨val', hget, hreport⟩ := h.getMean hsize (hfits hsize)
    have hok : s.profiler.call (.getMean val) = .ok (.values val', s.profiler) := by
      rw [call, hget, ok_bind]
    refine ⟨⟨_, _, hok, hreport⟩, fun s' hs' => ?_⟩
    rw [Session.step, hok] at hs'
    cases hs'
    exact h
  next hsize =>
    have herror : s.profiler.call (.getMean val) =
        .error (.invalidArgument "Return value buffer has wrong size.") := by
      rw [call, RuntimeProfiler.getMean, hcomponents, if_pos hsize]
      rfl
    exact ⟨⟨_, herror⟩, h.of_error herror⟩

theorem conforms_getVariance (h : Inv N B s) (val : Efl.BasicVector (Option K)) :
    ConformsAt N B (.getVariance val) s ∧
      ∀ s', s.step (.getVariance val) = some s' → Inv N B s' := by
  have hcomponents : s.profiler.numberOfComponents = N := h.layout.components
  unfold ConformsAt
  dsimp only
  split
  next hsize =>
    obtain ⟨val', hget, hreport⟩ := h.getVariance hsize
    have hok : s.profiler.call (.getVariance val) = .ok (.values val', s.profiler) := by
      rw [call, hget, ok_bind]
    refine ⟨⟨_, _, hok, hreport⟩, fun s' hs' => ?_⟩
    rw [Session.step, hok] at hs'
    cases hs'
    exact h
  next hsize =>
    have herror : s.profiler.call (.getVariance val) =
        .error (.invalidArgument "Return value buffer has wrong size.") := by
      rw [call, RuntimeProfiler.getVariance, hcomponents, if_pos hsize]
      rfl
    exact ⟨⟨_, herror⟩, h.of_error herror⟩

/-- **A call that fits** does what it is meant to do, and the next one finds the invariant. -/
theorem conforms [CharZero K] (h : Inv N B s) {c : Call K} (hfits : Fits N c s) :
    ConformsAt N B c s ∧ ∀ s', s.step c = some s' → Inv N B s' := by
  cases c with
  | setTime componentIdx timing => exact h.conforms_setTime componentIdx timing
  | finishIteration => exact h.conforms_finishIteration hfits
  | resetMeasurements =>
    refine ⟨⟨_, rfl⟩, fun s' hs' => ?_⟩
    cases hs'
    exact h.resetMeasurements
  | resetStatistics =>
    obtain ⟨p, hreset, hinv⟩ := h.resetStatistics
    have hok : s.profiler.call .resetStatistics = .ok (.done, p) := by
      rw [call, hreset, ok_bind]
    refine ⟨⟨_, hok⟩, fun s' hs' => ?_⟩
    rw [Session.step, hok] at hs'
    cases hs'
    exact hinv
  | getStatistics mean variance => exact h.conforms_getStatistics mean variance
  | getAndResetStatistics mean variance => exact h.conforms_getAndResetStatistics mean variance
  | getMeasurements => exact h.conforms_getMeasurements
  | getMean val => exact h.conforms_getMean val hfits
  | getVariance val => exact h.conforms_getVariance val

/-- The counters, whatever their values are. -/
theorem counters_of_finishIteration (h : Inv N B s) {p : RuntimeProfiler K}
    (hok : s.profiler.finishIteration = .ok p) :
    p.mStatisticsSampleCounter = increment s.statistics.length ∧
      p.mMeasurementSampleCounter = increment s.measurements.length := by
  obtain ⟨mean, M2, tmp, tmp2, hupdate⟩ : ∃ mean M2 tmp tmp2,
      s.profiler.updateStatistics = .ok (s.profiler.setStatistics mean M2 tmp tmp2) := by
    by_cases hcount : s.profiler.mStatisticsSampleCounter = 0
    · obtain ⟨mean, hupdate, -⟩ := updateStatistics_first h.layout hcount
      exact ⟨_, _, _, _, hupdate⟩
    · obtain ⟨mean, M2, tmp, tmp2, hupdate, -⟩ := updateStatistics_next h.layout hcount
      exact ⟨_, _, _, _, hupdate⟩
  obtain ⟨buffer, hstore, -⟩ := storeMeasurement_spec (h.layout.setStatistics mean M2 tmp tmp2)
  rw [RuntimeProfiler.finishIteration, hupdate, ok_bind, hstore, ok_bind] at hok
  cases hok
  exact ⟨congrArg increment h.statisticsCount, congrArg increment h.measurementCount⟩

/-- A call that conforms fits: otherwise a counter overflows, or the mean is zero. -/
theorem fits (h : Inv N B s) {c : Call K} (hconforms : ConformsAt N B c s) : Fits N c s := by
  have hlt : ∀ n, increment n = n + 1 → n + 1 < 2 ^ 64 := fun n hn => by
    rw [← hn]
    exact Nat.mod_lt _ (by decide)
  cases c with
  | finishIteration =>
    obtain ⟨p, hok, hstatistics, hmeasurements⟩ := hconforms
    obtain ⟨p', hfinish, hp'⟩ := exists_of_bind_ok hok
    cases hp'
    obtain ⟨hcount, hcount'⟩ := h.counters_of_finishIteration hfinish
    exact ⟨hlt _ (hcount.symm.trans hstatistics), hlt _ (hcount'.symm.trans hmeasurements)⟩
  | getMean val =>
    intro hsize
    unfold ConformsAt at hconforms
    dsimp only at hconforms
    rw [if_pos hsize] at hconforms
    obtain ⟨val', p, hok, hreport⟩ := hconforms
    obtain ⟨mean, hget, -, hvalues⟩ := getMean_spec h.layout hsize
    rw [call, hget, ok_bind] at hok
    cases hok
    by_contra hnot
    obtain ⟨hne, hnone⟩ := not_or.mp hnot
    rw [if_pos (by omega)] at hreport
    cases (hvalues 0 (by omega)).symm.trans (hreport.2 0 (by omega))
  | _ => trivial

end Inv

/-- **When all calls conform.**  As long as no counter overflows, only the mean of no times is
reported as zero instead of `NaN`. -/
theorem statistics_conform_iff [CharZero K] (N B : ℕ) (calls : List (Call K)) :
    Throughout Session.step (ConformsAt N B) calls (Session.start K N B) ↔
      Throughout Session.step (Fits N) calls (Session.start K N B) := by
  constructor
  · intro h
    refine throughout_of_invariant (I := Inv N B) (fun c s s' hconforms hinv => ?_)
      (fun c s hconforms hinv => hinv.fits hconforms) h (inv_start N B)
    exact (hinv.conforms (hinv.fits hconforms)).2 s'
  · intro h
    refine throughout_of_invariant (I := Inv N B) (fun c s s' hfits hinv => ?_)
      (fun c s hfits hinv => ?_) h (inv_start N B)
    · exact (hinv.conforms hfits).2 s'
    · exact (hinv.conforms hfits).1

end Invariant

/-- A time is recorded before the mean is asked for. -/
theorem statistics_conform_one_time :
    Throughout Session.step (ConformsAt 1 0)
      [Call.setTime 0 3, .finishIteration, .getMean ((Efl.BasicVector.zeros ℚ 1).map some)]
      (Session.start ℚ 1 0) := by
  refine (statistics_conform_iff 1 0 _).mpr ⟨trivial, fun s hs => ⟨?_, fun s' hs' => ⟨?_, ?_⟩⟩⟩
  · cases hs
    exact ⟨by decide, by decide⟩
  · cases hs
    cases hs'
    exact fun _ => Or.inr le_rfl
  · exact fun s'' _ => trivial

/-- The mean is asked for before there is a time. -/
theorem not_conforms_no_time :
    ¬Throughout Session.step (ConformsAt 1 0) [Call.getMean ((Efl.BasicVector.zeros ℚ 1).map some)]
      (Session.start ℚ 1 0) := by
  intro h
  rcases (inv_start 1 0).fits h.1 rfl with hzero | hsome
  · exact absurd hzero (by decide)
  · exact absurd hsome (Nat.not_succ_le_zero 0)

end RuntimeProfiler

end Visr
