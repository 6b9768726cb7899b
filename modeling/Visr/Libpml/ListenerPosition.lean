import Visr.Librbbl.PropertyTree
import Visr.Librbbl.Quaternion

/-!
# Listener positions

The position and the orientation of a listener, and their JSON representation.  A member function
that throws an exception keeps what it has assigned before.

## Main results

* `Pml.ListenerPosition.run_parseJsonTree` — what is assigned.
* `Pml.ListenerPosition.parseJson_rejected` — **a text that is rejected leaves the object as it was**.
-/

namespace Visr

open PropertyTree Rbbl

/-- How a fault ends a member function. -/
def Abort.ofFault : Fault → Abort
  | .thrown e => .exception e
  | .divisionByZero => .undefined
  | .outOfRange => .undefined

namespace Pml

structure ListenerPosition (K : Type) [Field K] where
  position : Position3D K
  orientation : Quaternion K
  timeNs : Fin (2 ^ 64)
  faceID : Fin (2 ^ 32)
  numberOfListeners : Fin (2 ^ 64)

/-- There are numbers of the type of time stamps. -/
instance neZero_two_pow_sixtyFour : NeZero (2 ^ 64) := ⟨by decide⟩

/-- The functions of the libraries: `put` and `get` of the property trees, and `write_json` with
the flag for line breaks. -/
structure ListenerFormats (K : Type) where
  putCoordinate : K → String
  getCoordinate : String → Option K
  putUnsigned : Fin (2 ^ 32) → String
  getUnsigned : String → Option (Fin (2 ^ 32))
  putSize : Fin (2 ^ 64) → String
  getSize : String → Option (Fin (2 ^ 64))
  writeJson : PropertyTree → Bool → Except Exception (List UInt8)
  readJson : List UInt8 → Except Exception PropertyTree

inductive RotationFormat
  | ypr
  | rotationVector
  | quaternion
  deriving DecidableEq, Repr

namespace ListenerPosition

/-- A member function. -/
abbrev Method (K : Type) [Field K] := ExceptT Abort (StateM (ListenerPosition K))

section Definitions

variable {K : Type} [Field K] [LinearOrder K] (math : AngleFunctions K)
  (formats : ListenerFormats K)

/-- Constants of the mathematics library. -/
def degree2radian (deg : K) : K := math.pi / ((180 : ℕ) : K) * deg

def radian2degree (rad : K) : K := ((180 : ℕ) : K) / math.pi * rad

/-! ### Assignments -/

/-- The default constructor. -/
def new : ListenerPosition K where
  position := ⟨0, 0, 0⟩
  orientation := 1
  timeNs := 0
  faceID := 0
  numberOfListeners := 1

def setPosition (position : Position3D K) : Method K Unit :=
  modify fun pos => { pos with position := position }

def setOrientationQuaternion (orientation : Quaternion K) : Method K Unit :=
  modify fun pos => { pos with orientation := orientation }

def setOrientationYPR (yaw pitch roll : K) : Method K Unit :=
  setOrientationQuaternion (fromYPR math yaw pitch roll)

def setOrientationRotationVector (rotationVector : Position3D K) (angle : K) : Method K Unit :=
  match setRotationVector math .float rotationVector angle with
  | .error fault => throw (Abort.ofFault fault)
  | .ok orientation => setOrientationQuaternion orientation

def setTimeNs (timeNs : Fin (2 ^ 64)) : Method K Unit :=
  modify fun pos => { pos with timeNs := timeNs }

def setFaceID (faceID : Fin (2 ^ 32)) : Method K Unit :=
  modify fun pos => { pos with faceID := faceID }

def setNumberOfListeners (numListeners : Fin (2 ^ 64)) : Method K Unit :=
  modify fun pos => { pos with numberOfListeners := numListeners }

/-! ### Transformations -/

def translate (pos : ListenerPosition K) (translationVector : Position3D K) : ListenerPosition K :=
  { pos with position := addPosition pos.position translationVector }

/-- Rotates the position and the orientation. -/
def rotate (pos : ListenerPosition K) (rotation : Quaternion K) : ListenerPosition K :=
  { pos with
    position := Rbbl.rotate pos.position rotation
    orientation := rotation * pos.orientation }

def transform (pos : ListenerPosition K) (rotation : Quaternion K) (translation : Position3D K) :
    ListenerPosition K :=
  (pos.rotate rotation).translate translation

/-! ### Reading -/

/-- The block of `parseJson()` for an orientation that is there. -/
def parseOrientationTree (orTree : PropertyTree) : Method K Unit := do
  let hasQuat : Bool := 0 < orTree.count "quaternion"
  let hasYpr : Bool :=
    0 < orTree.count "yaw" ∨ 0 < orTree.count "pitch" ∨ 0 < orTree.count "roll"
  let hasRotationVec : Bool := 0 < orTree.count "rotationVector"
  if 1 < hasQuat.toNat + hasYpr.toNat + hasRotationVec.toNat then
    throw (.exception (.invalidArgument ("ListenerPosition::parseJson():" ++
      " Orientation must be provided either as yaw,pitch,roll, a rotation " ++
      "vector/angle or as a quaternion")))
  else if hasQuat then do
    let quatTree ← orTree.getChild ["quaternion"]
    let qw ← quatTree.get formats.getCoordinate ["w"]
    let qx ← quatTree.get formats.getCoordinate ["x"]
    let qy ← quatTree.get formats.getCoordinate ["y"]
    let qz ← quatTree.get formats.getCoordinate ["z"]
    setOrientationQuaternion ⟨qw, qx, qy, qz⟩
  else if hasYpr then
    let yaw := degree2radian math (orTree.getDefault formats.getCoordinate ["yaw"] 0)
    let pitch := degree2radian math (orTree.getDefault formats.getCoordinate ["pitch"] 0)
    let roll := degree2radian math (orTree.getDefault formats.getCoordinate ["roll"] 0)
    setOrientationYPR math yaw pitch roll
  else if hasRotationVec then do
    let vecTree ← orTree.getChild ["rotationVector"]
    let rx ← vecTree.get formats.getCoordinate ["x"]
    let ry ← vecTree.get formats.getCoordinate ["y"]
    let rz ← vecTree.get formats.getCoordinate ["z"]
    let angle ← vecTree.get formats.getCoordinate ["angle"]
    setOrientationRotationVector math ⟨rx, ry, rz⟩ (degree2radian math angle)
  else setOrientationYPR math 0 0 0

/-- The orientation is left out for the default one. -/
def parseOrientation (tree : PropertyTree) : Method K Unit :=
  if 0 < tree.count "orientation" then do
    let orTree ← tree.getChild ["orientation"]
    parseOrientationTree math formats orTree
  else setOrientationQuaternion 1

/-- `parseJson()` for trees. -/
def parseJsonTree (tree : PropertyTree) : Method K Unit := do
  let x := tree.getDefault formats.getCoordinate ["x"] 0
  let y := tree.getDefault formats.getCoordinate ["y"] 0
  let z := tree.getDefault formats.getCoordinate ["z"] 0
  parseOrientation math formats tree
  setPosition ⟨x, y, z⟩
  setTimeNs (tree.getDefault formats.getSize ["timeStamp"] 0)
  setFaceID (tree.getDefault formats.getUnsigned ["faceId"] 0)
  setNumberOfListeners (tree.getDefault formats.getSize ["numListeners"] 1)

/-- `parseJson()` for streams and strings. -/
def parseJson (text : List UInt8) : Method K Unit :=
  match formats.readJson text with
  | .error ex => throw (.exception ex)
  | .ok tree => parseJsonTree math formats tree

/-! ### Writing -/

def orientationTree (orientation : Quaternion K) : RotationFormat → PropertyTree
  | .ypr =>
    ((PropertyTree.new.put ["yaw"]
        (formats.putCoordinate (radian2degree math (yaw math orientation)))).put ["pitch"]
        (formats.putCoordinate (radian2degree math (pitch math orientation)))).put ["roll"]
        (formats.putCoordinate (radian2degree math (roll math orientation)))
  | .rotationVector =>
    let vec := Rbbl.rotationVector math .float orientation
    let angle := radian2degree math (rotationAngle math orientation)
    PropertyTree.new.addChild "rotationVector"
      ((((PropertyTree.new.put ["angle"] (formats.putCoordinate angle)).put ["x"]
        (formats.putCoordinate vec.x)).put ["y"] (formats.putCoordinate vec.y)).put ["z"]
        (formats.putCoordinate vec.z))
  | .quaternion =>
    PropertyTree.new.addChild "quaternion"
      ((((PropertyTree.new.put ["w"] (formats.putCoordinate orientation.re)).put ["x"]
        (formats.putCoordinate orientation.imI)).put ["y"]
        (formats.putCoordinate orientation.imJ)).put ["z"]
        (formats.putCoordinate orientation.imK))

/-- `writeJson()` for trees.  A time stamp and an id that are zero are left out. -/
def writeJsonTree (pos : ListenerPosition K) (rotationFormat : RotationFormat)
    (tree : PropertyTree) : PropertyTree :=
  let tree := tree.put ["x"] (formats.putCoordinate pos.position.x)
  let tree := tree.put ["y"] (formats.putCoordinate pos.position.y)
  let tree := tree.put ["z"] (formats.putCoordinate pos.position.z)
  let tree := tree.addChild "orientation"
    (orientationTree math formats pos.orientation rotationFormat)
  let tree := if pos.timeNs ≠ 0 then tree.put ["timeStamp"] (formats.putSize pos.timeNs) else tree
  let tree := if pos.faceID ≠ 0 then tree.put ["faceId"] (formats.putUnsigned pos.faceID) else tree
  tree.put ["numListeners"] (formats.putSize pos.numberOfListeners)

/-- `writeJson()` for streams. -/
def writeJson (pos : ListenerPosition K) (rotationFormat : RotationFormat) (prettyPrint : Bool) :
    Except Exception (List UInt8) :=
  formats.writeJson (pos.writeJsonTree math formats rotationFormat PropertyTree.new) prettyPrint

/-- `writeJson()` for strings, which does not use its second argument. -/
def writeJsonString (pos : ListenerPosition K) (rotationFormat : RotationFormat)
    (_prettyPrint : Bool) : Except Exception (List UInt8) :=
  pos.writeJson math formats rotationFormat false

end Definitions

/-! ### What is assigned -/

section Assignments

variable {K : Type} [Field K]

/-- How a member function ends and leaves the object. -/
def run {α : Type} (m : Method K α) (pos : ListenerPosition K) :
    Except Abort α × ListenerPosition K :=
  ExceptT.run m pos

theorem run_bind {α β : Type} (m : Method K α) (next : α → Method K β) (pos : ListenerPosition K) :
    run (m >>= next) pos =
      match run m pos with
      | (.error abort, pos') => (.error abort, pos')
      | (.ok x, pos') => run (next x) pos' := by
  show ExceptT.bindCont next (run m pos).1 (run m pos).2 = _
  rcases run m pos with ⟨_ | _, _⟩ <;> rfl

/-- The orientation is assigned, or something is thrown before that. -/
def SetsOrientation (m : Method K Unit) (value : Except Abort (Quaternion K)) : Prop :=
  ∀ pos, run m pos =
    match value with
    | .error abort => (.error abort, pos)
    | .ok orientation => (.ok (), { pos with orientation := orientation })

theorem setsOrientation_ok (orientation : Quaternion K) :
    SetsOrientation (setOrientationQuaternion orientation) (.ok orientation) := fun _ => rfl

theorem setsOrientation_throw (abort : Abort) :
    SetsOrientation (K := K) (throw abort) (.error abort) := fun _ => rfl

/-- Something is read before the orientation is assigned. -/
theorem exists_setsOrientation_bind {α : Type} {value : Except Abort α} (hvalue : Handled value)
    {next : α → Method K Unit} (h : ∀ x, ∃ v, Handled v ∧ SetsOrientation (next x) v) :
    ∃ v, Handled v ∧ SetsOrientation (liftM value >>= next) v := by
  cases value with
  | error abort => exact ⟨.error abort, handled_error.mpr (handled_error.mp hvalue), fun _ => rfl⟩
  | ok x =>
    obtain ⟨v, hv, hsets⟩ := h x
    exact ⟨v, hv, fun pos => hsets pos⟩

end Assignments

variable {K : Type} [Field K] [LinearOrder K] {math : AngleFunctions K}
  {formats : ListenerFormats K}

/-- What a tree represents, apart from the orientation. -/
def ofTree (formats : ListenerFormats K) (tree : PropertyTree) (orientation : Quaternion K) :
    ListenerPosition K where
  position :=
    ⟨tree.getDefault formats.getCoordinate ["x"] 0, tree.getDefault formats.getCoordinate ["y"] 0,
      tree.getDefault formats.getCoordinate ["z"] 0⟩
  orientation := orientation
  timeNs := tree.getDefault formats.getSize ["timeStamp"] 0
  faceID := tree.getDefault formats.getUnsigned ["faceId"] 0
  numberOfListeners := tree.getDefault formats.getSize ["numListeners"] 1

/-- **The orientation is assigned before everything else.** -/
theorem run_parseJsonTree {tree : PropertyTree} {value : Except Abort (Quaternion K)}
    (h : SetsOrientation (parseOrientation math formats tree) value) (pos : ListenerPosition K) :
    run (parseJsonTree math formats tree) pos =
      match value with
      | .error abort => (.error abort, pos)
      | .ok orientation => (.ok (), ofTree formats tree orientation) := by
  unfold parseJsonTree
  dsimp only
  rw [run_bind, h pos]
  cases value <;> rfl

variable [IsStrictOrderedRing K]

/-- A vector that is not too short has a length to divide by. -/
theorem exists_setsOrientation_rotationVector (rotationVector : Position3D K) (angle : K) :
    ∃ v, Handled v ∧
      SetsOrientation (setOrientationRotationVector math rotationVector angle) v := by
  unfold setOrientationRotationVector setRotationVector normalisePosition
  dsimp only
  by_cases hshort : Rbbl.norm math rotationVector < CoordinateType.float.epsilon K
  · rw [if_pos ⟨rfl, hshort⟩]
    exact ⟨_, handled_error.mpr rfl, setsOrientation_throw _⟩
  · have hpos : 0 < Rbbl.norm math rotationVector :=
      (Rbbl.epsilon_pos .float).trans_le (not_lt.mp hshort)
    rw [if_neg fun h => hshort h.2, divided_of_ne _ hpos.ne']
    exact ⟨_, handled_ok _, setsOrientation_ok _⟩

theorem exists_setsOrientation_parse (orTree : PropertyTree) :
    ∃ v, Handled v ∧ SetsOrientation (parseOrientationTree math formats orTree) v := by
  unfold parseOrientationTree
  dsimp only
  split
  · exact ⟨_, handled_error.mpr rfl, setsOrientation_throw _⟩
  · split
    · refine exists_setsOrientation_bind (handled_getChild _ _) fun quatTree => ?_
      refine exists_setsOrientation_bind (handled_get _ _ _) fun qw => ?_
      refine exists_setsOrientation_bind (handled_get _ _ _) fun qx => ?_
      refine exists_setsOrientation_bind (handled_get _ _ _) fun qy => ?_
      refine exists_setsOrientation_bind (handled_get _ _ _) fun qz => ?_
      exact ⟨_, handled_ok _, setsOrientation_ok _⟩
    · split
      · exact ⟨_, handled_ok _, setsOrientation_ok _⟩
      · split
        · refine exists_setsOrientation_bind (handled_getChild _ _) fun vecTree => ?_
          refine exists_setsOrientation_bind (handled_get _ _ _) fun rx => ?_
          refine exists_setsOrientation_bind (handled_get _ _ _) fun ry => ?_
          refine exists_setsOrientation_bind (handled_get _ _ _) fun rz => ?_
          refine exists_setsOrientation_bind (handled_get _ _ _) fun angle => ?_
          exact exists_setsOrientation_rotationVector _ _
        · exact ⟨_, handled_ok _, setsOrientation_ok _⟩

theorem exists_setsOrientation (tree : PropertyTree) :
    ∃ v, Handled v ∧ SetsOrientation (parseOrientation math formats tree) v := by
  unfold parseOrientation
  split
  · refine exists_setsOrientation_bind (handled_getChild _ _) fun orTree => ?_
    exact exists_setsOrientation_parse orTree
  · exact ⟨_, handled_ok _, setsOrientation_ok 1⟩

/-- What is read does not depend on the object. -/
theorem exists_run_parseJson (math : AngleFunctions K) (formats : ListenerFormats K)
    (text : List UInt8) :
    ∃ value : Except Abort (ListenerPosition K), Handled value ∧
      ∀ pos, run (parseJson math formats text) pos =
        match value with
        | .error abort => (.error abort, pos)
        | .ok result => (.ok (), result) := by
  unfold parseJson
  cases formats.readJson text with
  | error ex => exact ⟨.error (.exception ex), handled_error.mpr rfl, fun _ => rfl⟩
  | ok tree =>
    obtain ⟨value, hhandled, hvalue⟩ := exists_setsOrientation (K := K) tree
    refine ⟨value.map (ofTree formats tree), handled_map.mpr hhandled, fun pos => ?_⟩
    refine (run_parseJsonTree hvalue pos).trans ?_
    cases value <;> rfl

/-- **A text that is rejected leaves the object as it was.** -/
theorem parseJson_rejected {text : List UInt8} {pos pos' : ListenerPosition K} {abort : Abort}
    (h : run (parseJson math formats text) pos = (.error abort, pos')) : pos' = pos := by
  obtain ⟨value, -, hvalue⟩ := exists_run_parseJson math formats text
  rw [hvalue] at h
  cases value with
  | error abort => exact (Prod.mk.inj h).2.symm
  | ok result => cases (Prod.mk.inj h).1

end ListenerPosition

end Pml

end Visr
