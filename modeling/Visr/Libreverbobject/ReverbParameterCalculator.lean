import Mathlib.Data.Vector.Basic
import Visr.Libobjectmodel.Object
import Visr.Libpanning.CAP
import Visr.Libpanning.VBAP
import Visr.Libpml.MessageQueueProtocol
import Visr.Libpml.SignalRoutingParameter
import Visr.Librbbl.ObjectChannelAllocator
import Visr.Librcl.MessageLoop

/-!
# The calculation of reverb parameters

The component that allocates a rendering channel to each object with reverb, and that computes the
parameters of its reflections and of its late reverb.

## Main results

* `lateReverbEqual_iff` — the comparison is one of all components.
-/

namespace Visr

variable {K : Type}

/-- The elements of a vector parameter. -/
abbrev VectorParameter (K : Type) := ℕ → K

/-- The columns of a matrix parameter. -/
abbrev MatrixParameter (K : Type) := ℕ → ℕ → K

/-- The rows of a matrix of biquad sections. -/
abbrev BiquadParameterMatrix (K : Type) :=
  ℕ → Fin cNumDiscreteReflectionBiquads → BiquadCoefficient K

/-- Both buffers of a protocol have the same size. -/
instance : ParameterBase (VectorParameter K) where
  assign _ source := .ok source
  assign_eq h := (Except.ok.inj h).symm

instance : ParameterBase (BiquadParameterMatrix K) where
  assign _ source := .ok source
  assign_eq h := (Except.ok.inj h).symm

/-- A message about the late reverb of a rendering channel. -/
structure LateReverbParameter (K : Type) where
  index : ℕ
  reverbParameters : LateReverb K

/-! ### The component -/

/-- What is fixed by `setup()`.  The number of biquad sections is that of the objects. -/
structure ReverbConfiguration (K : Type) where
  fullName : String
  maxNumberOfObjects : ℕ
  numberOfDiscreteReflectionsPerSource : ℕ
  numberOfPanningLoudspeakers : ℕ
  vbapCalculator : VBAP K

/-- The component with the protocols its outputs are connected to.  The panning gains are shared
data. -/
structure ReverbParameterCalculator (K : Type) extends ReverbConfiguration K where
  channelAllocator : ObjectChannelAllocator
  previousLateReverbs : ℕ → LateReverb K
  signalRoutingOutput : DoubleBufferingProtocol SignalRoutingParameter
  discreteReflectionGainOutput : DoubleBufferingProtocol (VectorParameter K)
  discreteReflectionDelayOutput : DoubleBufferingProtocol (VectorParameter K)
  discreteReflectionFilterCoeffOutput : DoubleBufferingProtocol (BiquadParameterMatrix K)
  discretePanningGains : MatrixParameter K
  lateReflectionGainOutput : DoubleBufferingProtocol (VectorParameter K)
  lateReflectionDelayOutput : DoubleBufferingProtocol (VectorParameter K)
  lateSubbandOutput : MessageQueueProtocol (LateReverbParameter K)

/-- `objectmodel::Object::cInvalidChannelIndex`. -/
def cInvalidChannelIndex : ℕ := 4294967295

section Field

variable [Field K]

/-- The flat filter, which is the default one. -/
def defaultBiquad : BiquadCoefficient K := { b0 := 1, b1 := 0, b2 := 0, a1 := 0, a2 := 0 }

/-- `initializeCoeffVector()`.  Without values, the exception is thrown after the default value has
been assigned. -/
def initializeCoeffVector (coeffName : String) (initVal : List K) :
    Except Exception (LateReverbCoeffs K) :=
  match initVal with
  | [val] => .ok (List.Vector.replicate _ val)
  | _ =>
    if h : initVal.length = cNumberOfSubBands then .ok ⟨initVal, h⟩
    else .error (.invalidArgument ("PointSourceWithReverb::LateReverb: If provided, " ++
      "the parameter \"" ++ coeffName ++
      "\" must be empty match the fixed number of subbands."))

/-- The constructor of the late reverb with initial values. -/
def LateReverb.construct (onsetDelay : K) (levels decayCoeffs attackTimes : List K) :
    Except Exception (LateReverb K) := do
  let levels ← initializeCoeffVector "levels" levels
  let decayCoeffs ← initializeCoeffVector "decayCoeffs" decayCoeffs
  let attackTimes ← initializeCoeffVector "atackTimes" attackTimes
  return { onsetDelay, attackTimes, decayCoeffs, levels }

/-- `cDefaultLateReverbParameter`, the late reverb that cannot be heard. -/
def cDefaultLateReverbParameter : LateReverb K where
  onsetDelay := 0
  attackTimes := List.Vector.replicate _ 0
  decayCoeffs := List.Vector.replicate _ 0
  levels := List.Vector.replicate _ 0

/-- The default value is the one that the constructor makes of its arguments. -/
theorem construct_cDefaultLateReverbParameter :
    LateReverb.construct (0 : K) [0] [0] [0] = .ok cDefaultLateReverbParameter := rfl

/-- The value with which `setup()` marks that nothing has been sent for a channel. -/
def initialLateReverb : LateReverb K := { cDefaultLateReverbParameter with onsetDelay := -1 }

namespace ReverbParameterCalculator

variable [LinearOrder K]

def setup (math : CMath K) (fullName : String) (arrayConfig : LoudspeakerArray K)
    (numberOfObjects numberOfDiscreteReflectionsPerSource numBiquadSectionsReflectionFilters : ℕ) :
    Except Exception (ReverbParameterCalculator K) :=
  if numBiquadSectionsReflectionFilters ≠ cNumDiscreteReflectionBiquads then
    .error (.invalidArgument ("The number of biquad sections for the discrete reflections " ++
      "differs from the constant used in the object definition."))
  else .ok {
    fullName := fullName
    maxNumberOfObjects := numberOfObjects
    numberOfDiscreteReflectionsPerSource := numberOfDiscreteReflectionsPerSource
    numberOfPanningLoudspeakers := arrayConfig.getNumRegularSpeakers
    vbapCalculator := VBAP.create math.sqrt arrayConfig ⟨0, 0, 0⟩
    channelAllocator := .create numberOfObjects
    previousLateReverbs := fun _ => initialLateReverb
    signalRoutingOutput := .create .create .create
    discreteReflectionGainOutput := .create (fun _ => 0) fun _ => 0
    discreteReflectionDelayOutput := .create (fun _ => 0) fun _ => 0
    discreteReflectionFilterCoeffOutput :=
      .create (fun _ _ => defaultBiquad) fun _ _ => defaultBiquad
    discretePanningGains := fun _ _ => 0
    lateReflectionGainOutput := .create (fun _ => 0) fun _ => 0
    lateReflectionDelayOutput := .create (fun _ => 0) fun _ => 0
    lateSubbandOutput := ⟨[]⟩ }

end ReverbParameterCalculator

end Field

/-! ### The comparison of late reverbs -/

section Comparison

variable [Field K] [LinearOrder K]

/-- The largest difference of corresponding elements. -/
def maxDiff (lhs rhs : LateReverbCoeffs K) : K :=
  (List.zipWith (fun v1 v2 => |v1 - v2|) lhs.toList rhs.toList).foldl max 0

/-- `equal()`. -/
def lateReverbEqual (lhs rhs : LateReverb K) (limit : K) : Bool :=
  decide (|lhs.onsetDelay - rhs.onsetDelay| ≤ limit) &&
    decide (maxDiff lhs.levels rhs.levels ≤ limit) &&
    decide (maxDiff lhs.decayCoeffs rhs.decayCoeffs ≤ limit) &&
    decide (maxDiff lhs.attackTimes rhs.attackTimes ≤ limit)

/-- All components of two late reverbs agree up to a tolerance. -/
structure Agree (limit : K) (lhs rhs : LateReverb K) : Prop where
  onsetDelay : |lhs.onsetDelay - rhs.onsetDelay| ≤ limit
  levels : ∀ i, |lhs.levels.get i - rhs.levels.get i| ≤ limit
  decayCoeffs : ∀ i, |lhs.decayCoeffs.get i - rhs.decayCoeffs.get i| ≤ limit
  attackTimes : ∀ i, |lhs.attackTimes.get i - rhs.attackTimes.get i| ≤ limit

omit [Field K] in
theorem foldl_max_le_iff {l : List K} {init limit : K} :
    l.foldl max init ≤ limit ↔ init ≤ limit ∧ ∀ x ∈ l, x ≤ limit := by
  induction l generalizing init with
  | nil => simp
  | cons x l ih =>
    rw [List.foldl_cons, ih, max_le_iff, List.forall_mem_cons, and_assoc]

theorem maxDiff_le_iff {lhs rhs : LateReverbCoeffs K} {limit : K} (hlimit : 0 ≤ limit) :
    maxDiff lhs rhs ≤ limit ↔ ∀ i, |lhs.get i - rhs.get i| ≤ limit := by
  unfold maxDiff
  rw [foldl_max_le_iff, and_iff_right hlimit]
  constructor
  · intro h i
    apply h
    have hmem := List.getElem_mem (l := List.zipWith (fun v1 v2 => |v1 - v2|) lhs.toList rhs.toList)
      (n := i) (by simp)
    simpa [List.Vector.get_eq_get_toList] using hmem
  · intro h x hx
    obtain ⟨i, hi, rfl⟩ := List.mem_iff_getElem.mp hx
    have hlt : i < cNumberOfSubBands := by simpa using hi
    simpa [List.Vector.get_eq_get_toList] using h ⟨i, hlt⟩

/-- **The comparison** is one of all components. -/
theorem lateReverbEqual_iff {lhs rhs : LateReverb K} {limit : K} (hlimit : 0 ≤ limit) :
    lateReverbEqual lhs rhs limit = true ↔ Agree limit lhs rhs := by
  unfold lateReverbEqual
  simp only [Bool.and_eq_true, decide_eq_true_eq, maxDiff_le_iff hlimit, and_assoc]
  exact ⟨fun ⟨h1, h2, h3, h4⟩ => ⟨h1, h2, h3, h4⟩, fun h => ⟨h.1, h.2, h.3, h.4⟩⟩

end Comparison

/-! ### The functions that process a scene -/

/-- How `process()` ends without a result.  The cast of an object to a class throws
`std::bad_cast`. -/
inductive ReverbFailure
  | thrown (e : Exception)
  | badCast
  deriving DecidableEq, Repr

/-- The data of the outputs, to which the functions get references, and the two members that
detect changes of the late reverb. -/
structure RenderData (K : Type) where
  signalRouting : SignalRoutingParameter
  discreteReflGains : VectorParameter K
  discreteReflDelays : VectorParameter K
  biquadCoeffs : BiquadParameterMatrix K
  discretePanningMatrix : MatrixParameter K
  lateReverbGains : VectorParameter K
  lateReverbDelays : VectorParameter K
  previousLateReverbs : ℕ → LateReverb K
  lateSubbandOutput : MessageQueueProtocol (LateReverbParameter K)

section Process

variable [Field K] [LinearOrder K]

/-- The late reverb of a channel is sent if it differs from the previous one. -/
def RenderData.sendLateReverb (d : RenderData K) (renderChannel : ℕ) (lateReverb : LateReverb K) :
    RenderData K :=
  if lateReverbEqual (d.previousLateReverbs renderChannel) lateReverb (epsilon K) then d
  else { d with
    previousLateReverbs := Function.update d.previousLateReverbs renderChannel lateReverb
    lateSubbandOutput :=
      d.lateSubbandOutput.enqueue { index := renderChannel, reverbParameters := lateReverb } }

namespace ReverbConfiguration

variable (math : CMath K) (c : ReverbConfiguration K)

/-- The parameters of one reflection are written.  The copy of a column does not fail, as it
demands no alignment. -/
def setReflection (d : RenderData K) (matrixIdx : ℕ) (level delay : K)
    (filters : Fin cNumDiscreteReflectionBiquads → BiquadCoefficient K) (panningGains : ℕ → K) :
    RenderData K :=
  { d with
    discretePanningMatrix := Function.update d.discretePanningMatrix matrixIdx fun lspIdx =>
      if lspIdx < c.numberOfPanningLoudspeakers then panningGains lspIdx
      else d.discretePanningMatrix matrixIdx lspIdx
    biquadCoeffs := Function.update d.biquadCoeffs matrixIdx filters
    discreteReflGains := Function.update d.discreteReflGains matrixIdx level
    discreteReflDelays := Function.update d.discreteReflDelays matrixIdx delay }

/-- One iteration of the loop over the reflections of an object. -/
def processReflection (startIdx : ℕ) (d : RenderData K) (r : DiscreteReflection K × ℕ) :
    Except Exception (RenderData K) :=
  let (discRefl, srcIdx) := r
  match c.vbapCalculator.calculateGains math.sqrt
      ⟨discRefl.positionX, discRefl.positionY, discRefl.positionZ⟩ false with
  | .error e => .error e
  | .ok tmpPanningGains =>
    .ok (c.setReflection d (startIdx + srcIdx) discRefl.level discRefl.delay
      discRefl.reflectionFilters.get tmpPanningGains)

/-- The loops that fill unused reflections with neutral values. -/
def clearReflections (startIdx : ℕ) (indices : List ℕ) (d : RenderData K) : RenderData K :=
  indices.foldl (fun d srcIdx =>
    c.setReflection d (startIdx + srcIdx) 0 0 (fun _ => defaultBiquad) fun _ => 0) d

def processSingleObject (rsao : PointSourceWithReverb K) (renderChannel : ℕ) (d : RenderData K) :
    Except Exception (RenderData K) :=
  if rsao.discreteReflections.length > c.numberOfDiscreteReflectionsPerSource then
    .error (.invalidArgument ("ReverbParameterCalculator::process(): Number of discrete " ++
      "reflections exceed maximum."))
  else
    let startIdx := renderChannel * c.numberOfDiscreteReflectionsPerSource
    match rsao.discreteReflections.zipIdx.foldlM (c.processReflection math startIdx) d with
    | .error e => .error e
    | .ok d =>
      let d := c.clearReflections startIdx (List.range' rsao.discreteReflections.length
        (c.numberOfDiscreteReflectionsPerSource - rsao.discreteReflections.length)) d
      let d := { d with
        lateReverbDelays := Function.update d.lateReverbDelays renderChannel 0
        lateReverbGains := Function.update d.lateReverbGains renderChannel 1 }
      .ok (d.sendLateReverb renderChannel rsao.lateReverb)

def clearSingleObject (renderChannel : ℕ) (d : RenderData K) : RenderData K :=
  let startRow := renderChannel * c.numberOfDiscreteReflectionsPerSource
  let d := c.clearReflections startRow (List.range c.numberOfDiscreteReflectionsPerSource) d
  let d := { d with
    lateReverbDelays := Function.update d.lateReverbDelays renderChannel 0
    lateReverbGains := Function.update d.lateReverbGains renderChannel 0 }
  d.sendLateReverb renderChannel cDefaultLateReverbParameter

/-- The loop over the objects.  A status message about an error is thrown as an exception. -/
def foundReverbObjects : List (AnyObject K) → Except Exception (List ObjectId)
  | [] => .ok []
  | obj :: objects =>
    match obj with
    | .pointSourceWithReverb obj =>
      if obj.numberOfChannels ≠ 1 then
        .error (.runtimeError (c.fullName ++ ": \"" ++ "ReverbParameterCalculator: " ++
          "reverb objects must be single-channel." ++ "\"."))
      else (foundReverbObjects objects).map (obj.id.val :: ·)
    | _ => foundReverbObjects objects

/-- `objects.at( objId )`. -/
def objectAt (objects : ObjectVector K) (objId : ObjectId) : Except Exception (AnyObject K) :=
  match objects.toList.find? fun obj => obj.id.val = objId with
  | none => .error (.invalidArgument "An audio object with this id does not exist.")
  | some obj => .ok obj

/-- `Object::channelIndex()`. -/
def channelIndex (obj : Object K) (index : ℕ) : Except Exception ℕ :=
  match obj.channelIndices[index]? with
  | none => .error (.invalidArgument "Object::channelIndex(): Argument exceeds number of channels.")
  | some channel => .ok channel.val

/-- One iteration of the loop over the rendering channels. -/
def processChannel (objects : ObjectVector K) (channelAllocator : ObjectChannelAllocator)
    (d : RenderData K) (chIdx : ℕ) : Except ReverbFailure (RenderData K) :=
  let objId := channelAllocator.getObjectForChannel chIdx
  if objId = cInvalidChannelIndex then
    .ok (c.clearSingleObject chIdx
      { d with signalRouting := (d.signalRouting.removeEntry chIdx).2 })
  else
    match objectAt objects objId with
    | .error e => .error (.thrown e)
    | .ok (.pointSourceWithReverb rsao) =>
      match channelIndex rsao.toObject 0 with
      | .error e => .error (.thrown e)
      | .ok channel =>
        (c.processSingleObject math rsao chIdx { d with
          signalRouting := d.signalRouting.addRouting { input := channel, output := chIdx } }).mapError
            .thrown
    | .ok _ => .error .badCast

end ReverbConfiguration

namespace ReverbParameterCalculator

/-- The data to which `process()` writes. -/
def data (s : ReverbParameterCalculator K) : RenderData K where
  signalRouting := s.signalRoutingOutput.frontValue
  discreteReflGains := s.discreteReflectionGainOutput.frontValue
  discreteReflDelays := s.discreteReflectionDelayOutput.frontValue
  biquadCoeffs := s.discreteReflectionFilterCoeffOutput.frontValue
  discretePanningMatrix := s.discretePanningGains
  lateReverbGains := s.lateReflectionGainOutput.frontValue
  lateReverbDelays := s.lateReflectionDelayOutput.frontValue
  previousLateReverbs := s.previousLateReverbs
  lateSubbandOutput := s.lateSubbandOutput

/-- The data is left in the buffers, which are swapped at the end of `process()`.  The panning
gains have no buffers. -/
def swapBuffers (s : ReverbParameterCalculator K) (d : RenderData K) :
    Except Exception (ReverbParameterCalculator K) := do
  let signalRoutingOutput ← s.signalRoutingOutput.publish d.signalRouting
  let discreteReflectionGainOutput ← s.discreteReflectionGainOutput.publish d.discreteReflGains
  let discreteReflectionDelayOutput ← s.discreteReflectionDelayOutput.publish d.discreteReflDelays
  let discreteReflectionFilterCoeffOutput ←
    s.discreteReflectionFilterCoeffOutput.publish d.biquadCoeffs
  let lateReflectionGainOutput ← s.lateReflectionGainOutput.publish d.lateReverbGains
  let lateReflectionDelayOutput ← s.lateReflectionDelayOutput.publish d.lateReverbDelays
  return { s with
    signalRoutingOutput, discreteReflectionGainOutput, discreteReflectionDelayOutput,
    discreteReflectionFilterCoeffOutput, lateReflectionGainOutput, lateReflectionDelayOutput
    discretePanningGains := d.discretePanningMatrix
    previousLateReverbs := d.previousLateReverbs
    lateSubbandOutput := d.lateSubbandOutput }

/-- What an exception leaves of the state is not modelled. -/
def process (math : CMath K) (objects : ObjectVector K) (s : ReverbParameterCalculator K) :
    Except ReverbFailure (ReverbParameterCalculator K) := do
  let foundReverbObjects ← (s.foundReverbObjects objects.toList).mapError .thrown
  if foundReverbObjects.length > s.maxNumberOfObjects then
    .error (.thrown (.runtimeError
      "The number of reverb objects exceeds the maximum admissible number."))
  else
    match s.channelAllocator.setObjects foundReverbObjects with
    | (.error e, _) => .error (.thrown e)
    | (.ok _, channelAllocator) =>
      let d ← (List.range s.maxNumberOfObjects).foldlM
        (s.processChannel math objects channelAllocator) s.data
      (ReverbParameterCalculator.swapBuffers { s with channelAllocator } d).mapError .thrown

end ReverbParameterCalculator

end Process

end Visr
