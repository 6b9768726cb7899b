import Visr.Librbbl.PropertyTree

/-!
# Filter coefficients as property trees

The parameters of equalisers and the coefficients of biquad filters, which are part of the
audio objects, and their JSON representations.

## Main results

* `ParametricIirCoefficientList.loadJson_writeXml` — **all but the small gains is read back.**
* `BiquadCoefficientList.loadJson_writeJson` — biquad filters are read back.
-/

namespace Visr

open PropertyTree FloatArithmetic

variable {F : Type}

/-- `ParametricIirCoefficientBase::Type`. -/
inductive ParametricIirType
  | lowpass
  | highpass
  | bandpass
  | bandstop
  | highshelf
  | lowshelf
  | peak
  | allpass
  deriving DecidableEq, Repr

namespace ParametricIirType

def typeIdToString : ParametricIirType → String
  | lowpass => "lowpass"
  | highpass => "highpass"
  | bandpass => "bandpass"
  | bandstop => "bandstop"
  | highshelf => "highshelf"
  | lowshelf => "lowshelf"
  | peak => "peak"
  | allpass => "allpass"

/-- All types, in the order of their names. -/
def all : List ParametricIirType :=
  [allpass, bandpass, bandstop, highpass, highshelf, lowpass, lowshelf, peak]

/-- The type with a name, which is searched in the table of all types. -/
def stringToTypeId (name : String) : Except Abort ParametricIirType :=
  match all.find? fun typeId => typeId.typeIdToString = name with
  | some typeId => .ok typeId
  | none => .error (.exception (.invalidArgument "Invalid IIR parameter string type"))

theorem handled_stringToTypeId (name : String) : Handled (stringToTypeId name) := by
  unfold stringToTypeId
  split
  · exact handled_ok _
  · exact handled_error.mpr rfl

@[simp] theorem stringToTypeId_typeIdToString (typeId : ParametricIirType) :
    stringToTypeId typeId.typeIdToString = .ok typeId := by
  cases typeId <;> rfl

end ParametricIirType

/-- A section of an equaliser. -/
structure ParametricIirCoefficient (F : Type) where
  type : ParametricIirType
  frequency : F
  quality : F
  gain : F
  deriving DecidableEq

namespace ParametricIirCoefficient

variable [FloatArithmetic F] (env : Platform F)

def loadJson (tree : PropertyTree) : Except Abort (ParametricIirCoefficient F) := do
  let typeStr ← tree.get some ["type"]
  let frequency ← tree.get env.getFloat ["f"]
  let quality ← tree.get env.getFloat ["q"]
  let gainOpt := tree.getOptional env.getFloat ["gain"]
  let typeId ← ParametricIirType.stringToTypeId typeStr
  return { type := typeId, frequency := frequency, quality := quality, gain := gainOpt.getD 0 }

theorem handled_loadJson (tree : PropertyTree) : Handled (loadJson env tree) :=
  (handled_get _ _ _).bind fun _ => (handled_get _ _ _).bind fun _ => (handled_get _ _ _).bind
    fun _ => (ParametricIirType.handled_stringToTypeId _).bind fun _ => handled_pure _

/-- The gain is large enough to be written. -/
def gainWritten (c : ParametricIirCoefficient F) : Bool := le FloatArithmetic.epsilon (abs c.gain)

def writeJson (c : ParametricIirCoefficient F) (tree : PropertyTree) : PropertyTree :=
  let tree := tree.put ["type"] c.type.typeIdToString
  let tree := tree.put ["f"] (env.putFloat c.frequency)
  let tree := tree.put ["q"] (env.putFloat c.quality)
  if c.gainWritten then tree.put ["gain"] (env.putFloat c.gain) else tree

/-- What is left of a section whose gain is not written. -/
def withoutSmallGain (c : ParametricIirCoefficient F) : ParametricIirCoefficient F :=
  if c.gainWritten then c else { c with gain := 0 }

theorem withoutSmallGain_eq_iff {c : ParametricIirCoefficient F} :
    c.withoutSmallGain = c ↔ c.gain = 0 ∨ c.gainWritten = true := by
  unfold withoutSmallGain
  split
  next h => simp [h]
  next h =>
    constructor
    · intro heq
      exact Or.inl (congrArg gain heq).symm
    · rintro (hzero | hwritten)
      · cases c
        cases hzero
        rfl
      · exact absurd hwritten h

/-- **A section is read back**, apart from a small gain. -/
theorem loadJson_writeJson {env : Platform F} (h : env.NumbersReadBack)
    (c : ParametricIirCoefficient F) :
    loadJson env (c.writeJson env new) = .ok c.withoutSmallGain := by
  rcases hgain : c.gainWritten with _ | _
  · simp [loadJson, writeJson, withoutSmallGain, hgain, get_singleton, getOptional_singleton, h]
  · simp [loadJson, writeJson, withoutSmallGain, hgain, get_singleton, getOptional_singleton, h,
      h.getFloat_putFloat]

end ParametricIirCoefficient

namespace ParametricIirCoefficientList

variable [FloatArithmetic F] (env : Platform F)

/-- The elements are read from all children, whatever their keys are. -/
def loadJson (tree : PropertyTree) : Except Abort (List (ParametricIirCoefficient F)) :=
  loadAll (ParametricIirCoefficient.loadJson env) (tree.children.map Prod.snd)

theorem handled_loadJson (tree : PropertyTree) : Handled (loadJson env tree) :=
  handled_loadAll (ParametricIirCoefficient.handled_loadJson env) _

/-- The elements are written like their JSON representation, but with a name. -/
def writeXml (coeffs : List (ParametricIirCoefficient F)) (tree : PropertyTree) : PropertyTree :=
  tree.addChildren "eq" (coeffs.map fun el => el.writeJson env new)

/-- The name of the elements does not matter. -/
theorem loadJson_addChildren {env : Platform F} (h : env.NumbersReadBack) (key : String)
    (coeffs : List (ParametricIirCoefficient F)) :
    loadJson env (new.addChildren key (coeffs.map fun el => el.writeJson env new)) =
      .ok (coeffs.map ParametricIirCoefficient.withoutSmallGain) := by
  rw [loadJson, children_addChildren]
  show loadAll _ ((List.map _ (coeffs.map _)).map Prod.snd) = _
  rw [List.map_map, List.map_map]
  exact loadAll_map fun c _ => ParametricIirCoefficient.loadJson_writeJson h c

/-- **A list of sections is read back**, apart from small gains. -/
theorem loadJson_writeXml {env : Platform F} (h : env.NumbersReadBack)
    (coeffs : List (ParametricIirCoefficient F)) :
    loadJson env (writeXml env coeffs new) =
      .ok (coeffs.map ParametricIirCoefficient.withoutSmallGain) :=
  loadJson_addChildren h "eq" coeffs

end ParametricIirCoefficientList

/-! ### Biquad filters -/

/-- The coefficients of a biquad filter, where `a0` is one. -/
structure BiquadCoefficient (F : Type) where
  b0 : F
  b1 : F
  b2 : F
  a1 : F
  a2 : F
  deriving DecidableEq

namespace BiquadCoefficient

variable [FloatArithmetic F] (env : Platform F)

/-- The filter that changes nothing. -/
def default : BiquadCoefficient F := { b0 := 1, b1 := 0, b2 := 0, a1 := 0, a2 := 0 }

def loadJson (tree : PropertyTree) : Except Abort (BiquadCoefficient F) := do
  let a0 := tree.getDefault env.getFloat ["a0"] 1
  let b0 ← tree.get env.getFloat ["b0"]
  let b1 ← tree.get env.getFloat ["b1"]
  let b2 ← tree.get env.getFloat ["b2"]
  let a1 ← tree.get env.getFloat ["a1"]
  let a2 ← tree.get env.getFloat ["a2"]
  return { b0 := b0 / a0, b1 := b1 / a0, b2 := b2 / a0, a1 := a1 / a0, a2 := a2 / a0 }

theorem handled_loadJson (tree : PropertyTree) : Handled (loadJson env tree) :=
  (handled_get _ _ _).bind fun _ => (handled_get _ _ _).bind fun _ => (handled_get _ _ _).bind
    fun _ => (handled_get _ _ _).bind fun _ => (handled_get _ _ _).bind fun _ => handled_pure _

/-- The coefficients are attributes of the node, or of its first child `biquad`. -/
def loadXml (tree : PropertyTree) : Except Abort (BiquadCoefficient F) := do
  let biquadTree := (tree.find? "biquad").getD tree
  let a0 := biquadTree.getDefault env.getFloat ["<xmlattr>", "a0"] 1
  let a1 ← biquadTree.get env.getFloat ["<xmlattr>", "a1"]
  let a2 ← biquadTree.get env.getFloat ["<xmlattr>", "a2"]
  let b0 ← biquadTree.get env.getFloat ["<xmlattr>", "b0"]
  let b1 ← biquadTree.get env.getFloat ["<xmlattr>", "b1"]
  let b2 ← biquadTree.get env.getFloat ["<xmlattr>", "b2"]
  return { b0 := b0 / a0, b1 := b1 / a0, b2 := b2 / a0, a1 := a1 / a0, a2 := a2 / a0 }

def writeJson (c : BiquadCoefficient F) (tree : PropertyTree) : PropertyTree :=
  let tree := tree.put ["b0"] (env.putFloat c.b0)
  let tree := tree.put ["b1"] (env.putFloat c.b1)
  let tree := tree.put ["b2"] (env.putFloat c.b2)
  let tree := tree.put ["a1"] (env.putFloat c.a1)
  tree.put ["a2"] (env.putFloat c.a2)

theorem handled_loadXml (tree : PropertyTree) : Handled (loadXml env tree) :=
  (handled_get _ _ _).bind fun _ => (handled_get _ _ _).bind fun _ => (handled_get _ _ _).bind
    fun _ => (handled_get _ _ _).bind fun _ => (handled_get _ _ _).bind fun _ => handled_pure _

theorem loadJson_writeJson {env : Platform F} (h : env.NumbersReadBack) (c : BiquadCoefficient F) :
    loadJson env (c.writeJson env new) = .ok c := by
  simp [loadJson, writeJson, get_singleton, getDefault, getOptional_singleton, h,
    FloatArithmetic.div_one]

end BiquadCoefficient

namespace BiquadCoefficientList

variable [FloatArithmetic F] (env : Platform F)

def loadJson (tree : PropertyTree) : Except Abort (List (BiquadCoefficient F)) :=
  loadAll (BiquadCoefficient.loadJson env) (tree.equalRange "")

theorem handled_loadJson (tree : PropertyTree) : Handled (loadJson env tree) :=
  handled_loadAll (BiquadCoefficient.handled_loadJson env) _

def loadXml (tree : PropertyTree) : Except Abort (List (BiquadCoefficient F)) :=
  let specNode := (tree.find? "filterSpec").getD tree
  loadAll (BiquadCoefficient.loadXml env) (specNode.equalRange "biquad")

theorem handled_loadXml (tree : PropertyTree) : Handled (loadXml env tree) :=
  handled_loadAll (BiquadCoefficient.handled_loadXml env) _

def writeJson (biquads : List (BiquadCoefficient F)) (tree : PropertyTree) : PropertyTree :=
  tree.addChildren "" (biquads.map fun c => c.writeJson env new)

/-- **A list of biquad filters is read back.** -/
theorem loadJson_writeJson {env : Platform F} (h : env.NumbersReadBack)
    (biquads : List (BiquadCoefficient F)) :
    loadJson env (writeJson env biquads new) = .ok biquads := by
  rw [loadJson, writeJson, equalRange_addChildren]
  refine (loadAll_map fun c _ => BiquadCoefficient.loadJson_writeJson h c).trans ?_
  rw [List.map_id']

end BiquadCoefficientList

end Visr
