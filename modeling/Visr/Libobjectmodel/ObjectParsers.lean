import Visr.Libobjectmodel.Object

/-!
# Parsing and writing audio objects

One parser for each class of objects, which reads the attributes of an object from a property
tree and writes them to one.  The parsers of derived classes use those of the base classes.
-/

namespace Visr

open Grammar PropertyTree FloatArithmetic

variable {F : Type} [FloatArithmetic F] (env : Platform F)

/-! ### All objects -/

namespace ObjectParser

/-- The body of the `try` block, for the channel indices. -/
def parseChannels (tree : PropertyTree) (obj : Object F) : Except Abort (Object F) := do
  let channelString ← tree.get some ["channels"]
  let channelIndices ← IndexSequence.parse env.capacity channelString
  return { obj with channelIndices := channelIndices.map (Fin.ofNat (2 ^ 32)) }

/-- The `try` block with its handler, which writes a message to the error stream. -/
def tryChannels (tree : PropertyTree) (obj : Object F) : Except Abort (Object F) :=
  match parseChannels env tree obj with
  | .ok obj' => .ok obj'
  | .error a => if a.isCaught then .ok obj else .error a

/-- The sections of the equaliser, if there are any. -/
def parseEq (tree : PropertyTree) : Except Abort (List (ParametricIirCoefficient F)) :=
  match tree.find? "eq" with
  | some eqTree => ParametricIirCoefficientList.loadJson env eqTree
  | none => .ok []

def parse (tree : PropertyTree) (obj : Object F) : Except Abort (Object F) := do
  let obj ← tryChannels env tree obj
  let groupId ← tree.get env.getUnsigned ["group"]
  let level ← tree.get env.getFloat ["level"]
  let priority ← tree.get env.getPriority ["priority"]
  let eqCoeffs ← parseEq env tree
  return { obj with
    groupId := groupId
    level := level
    priority := priority
    eqCoefficients := eqCoeffs }

def write (type : ObjectTypeId) (obj : Object F) (tree : PropertyTree) : PropertyTree :=
  let tree := tree.put ["type"] (objectTypeToString type)
  let tree := tree.put ["channels"] (commaText ((obj.channelIndices.map Fin.val).map toString))
  let tree := tree.put ["id"] (env.putUnsigned obj.id)
  let tree := tree.put ["group"] (env.putUnsigned obj.groupId)
  let tree := tree.put ["level"] (env.putFloat obj.level)
  let tree := tree.put ["priority"] (env.putPriority obj.priority)
  if obj.eqCoefficients.isEmpty then tree
  else tree.addChild "eq" (ParametricIirCoefficientList.writeXml env obj.eqCoefficients new)

end ObjectParser

/-! ### Point sources -/

def degree2radian (deg : F) : F := degree * deg

def spherical2cartesian (az el radius : F) : F × F × F :=
  (cos az * cos el * radius, sin az * cos el * radius, sin el * radius)

namespace PointSourceParser

/-- Cartesian or spherical coordinates, but no mixture between them. -/
def parsePosition (posTree : PropertyTree) : Except Abort (F × F × F) :=
  let coordX := posTree.getOptional env.getFloat ["x"]
  let coordY := posTree.getOptional env.getFloat ["y"]
  let coordZ := posTree.getOptional env.getFloat ["z"]
  let coordAz := posTree.getOptional env.getFloat ["az"]
  let coordEl := posTree.getOptional env.getFloat ["el"]
  let coordRadius := posTree.getOptional env.getFloat ["radius"]
  let anyCartCoord := coordX.isSome || coordY.isSome || coordZ.isSome
  let anySphCoord := coordAz.isSome || coordEl.isSome || coordRadius.isSome
  if !(anyCartCoord || anySphCoord) then
    .error (.exception
      (.invalidArgument "Positions contain either Cartesian or spherical coordinates"))
  else if anyCartCoord && anySphCoord then
    .error (.exception (.invalidArgument
      "Positions must not contain both Cartesian or spherical coordinates"))
  else if anyCartCoord then
    match coordX, coordY with
    | some x, some y => .ok (x, y, coordZ.getD 0)
    | _, _ => .error (.exception (.invalidArgument ("Positions in Cartesian coordinates must " ++
        "provide the \"x\" and \"y\" attributes.")))
  else
    match coordAz, coordEl with
    | some az, some el =>
      .ok (spherical2cartesian (degree2radian az) (degree2radian el) (coordRadius.getD 1))
    | _, _ => .error (.exception (.invalidArgument ("Positions in spherical coordinates must " ++
        "provide the \"az\" and \"el\" attributes.")))

/-- The body of the `try` block. -/
def parseAttributes (tree : PropertyTree) (pointSrc : PointSource F) :
    Except Abort (PointSource F) := do
  let posTree ← tree.getChild ["position"]
  let (xPos, yPos, zPos) ← parsePosition env posTree
  return { pointSrc with
    x := xPos
    y := yPos
    z := zPos
    channelLockDistance := tree.getDefault env.getFloat ["channelLock"] 0 }

def parse (tree : PropertyTree) (src : PointSource F) : Except Abort (PointSource F) := do
  let obj ← ObjectParser.parse env tree src.toObject
  (parseAttributes env tree { src with toObject := obj }).mapError
    (Abort.rethrow "Error while parsing point source: object: ")

def write (type : ObjectTypeId) (psObj : PointSource F) (tree : PropertyTree) : PropertyTree :=
  let tree := ObjectParser.write env type psObj.toObject tree
  let tree := tree.put ["position", "x"] (env.putFloat psObj.x)
  let tree := tree.put ["position", "y"] (env.putFloat psObj.y)
  let tree := tree.put ["position", "z"] (env.putFloat psObj.z)
  if psObj.channelLockDistance ≠ 0 then
    tree.put ["channelLock"] (env.putFloat psObj.channelLockDistance)
  else tree

end PointSourceParser

namespace PointSourceWithDiffusenessParser

def parse (tree : PropertyTree) (src : PointSourceWithDiffuseness F) :
    Except Abort (PointSourceWithDiffuseness F) :=
  Except.mapError (Abort.rethrow "Error while parsing point source: object: ") do
    let pointSrc ← PointSourceParser.parse env tree src.toPointSource
    let diffuseness ← tree.get env.getFloat ["diffuseness"]
    return { toPointSource := pointSrc, diffuseness := diffuseness }

def write (type : ObjectTypeId) (pswdObj : PointSourceWithDiffuseness F) (tree : PropertyTree) :
    PropertyTree :=
  let tree := PointSourceParser.write env type pswdObj.toPointSource tree
  tree.put ["diffuseness"] (env.putFloat pswdObj.diffuseness)

end PointSourceWithDiffusenessParser

namespace PointSourceExtentParser

/-- The base class is parsed by the parser that demands a diffuseness. -/
def parse (tree : PropertyTree) (src : PointSourceExtent F) :
    Except Abort (PointSourceExtent F) :=
  Except.mapError (Abort.rethrow "Error while parsing point source with extent object: ") do
    let extentPointSrc ←
      PointSourceWithDiffusenessParser.parse env tree src.toPointSourceWithDiffuseness
    let width ← tree.get env.getFloat ["width"]
    let height ← tree.get env.getFloat ["height"]
    return {
      toPointSourceWithDiffuseness := extentPointSrc
      width := width
      height := height
      depth := tree.getDefault env.getFloat ["depth"] 0 }

/-- The base class is written by the parser that does not know about the diffuseness. -/
def write (type : ObjectTypeId) (pseObj : PointSourceExtent F) (tree : PropertyTree) :
    PropertyTree :=
  let tree := PointSourceParser.write env type pseObj.toPointSource tree
  let tree := tree.put ["width"] (env.putFloat pseObj.width)
  let tree := tree.put ["height"] (env.putFloat pseObj.height)
  tree.put ["depth"] (env.putFloat pseObj.depth)

end PointSourceExtentParser

/-! ### Plane waves, diffuse sources and sound fields -/

namespace PlaneWaveParser

def parse (tree : PropertyTree) (pwSrc : PlaneWave F) : Except Abort (PlaneWave F) := do
  let obj ← ObjectParser.parse env tree pwSrc.toObject
  Except.mapError (Abort.rethrow "Error while parsing point source: object: ") do
    let azimuth ← tree.get env.getFloat ["direction", "az"]
    let elevation ← tree.get env.getFloat ["direction", "el"]
    let distance ← tree.get env.getFloat ["direction", "refdist"]
    return {
      toObject := obj
      incidenceAzimuth := azimuth
      incidenceElevation := elevation
      referenceDistance := distance }

def write (type : ObjectTypeId) (pwObj : PlaneWave F) (tree : PropertyTree) : PropertyTree :=
  let tree := ObjectParser.write env type pwObj.toObject tree
  let tree := tree.put ["direction", "az"] (env.putFloat pwObj.incidenceAzimuth)
  let tree := tree.put ["direction", "el"] (env.putFloat pwObj.incidenceElevation)
  tree.put ["direction", "refdist"] (env.putFloat pwObj.referenceDistance)

end PlaneWaveParser

namespace DiffuseSourceParser

def parse (tree : PropertyTree) (obj : DiffuseSource F) : Except Abort (DiffuseSource F) :=
  Except.mapError (Abort.rethrow "Error while parsing point source: object: ") do
    let obj ← ObjectParser.parse env tree obj.toObject
    return { toObject := obj }

def write (type : ObjectTypeId) (obj : DiffuseSource F) (tree : PropertyTree) : PropertyTree :=
  ObjectParser.write env type obj.toObject tree

end DiffuseSourceParser

namespace HoaSourceParser

/-- The number of channels must be right for the order. -/
def parse (tree : PropertyTree) (hoaSrc : HoaSource F) : Except Abort (HoaSource F) := do
  let obj ← ObjectParser.parse env tree hoaSrc.toObject
  Except.mapError (Abort.rethrow "Error while parsing HOA source: object: ") do
    let order ← tree.get env.getUnsigned ["order"]
    if ((order + 1) * (order + 1)).val ≠ obj.numberOfChannels then
      .error (.exception (.invalidArgument
        "Number of channel signals differs from the value expected for thus HOA order."))
    else .ok { toObject := obj, order := order }

def write (type : ObjectTypeId) (hoaObj : HoaSource F) (tree : PropertyTree) : PropertyTree :=
  let tree := ObjectParser.write env type hoaObj.toObject tree
  tree.put ["order"] (env.putUnsigned hoaObj.order)

end HoaSourceParser

/-! ### Channel objects -/

namespace ChannelObjectParser

/-- The characters of labels. -/
def isLabelChar (c : Char) : Bool :=
  c.isAlphanum || c = '&' || c = '@' || c = '+' || c = '_' || c = '-'

/-- The characters of a label, where white space is skipped also between them. -/
def labelChars : List Char → List Char × List Char
  | [] => ([], [])
  | c :: s =>
    if isSpace c then labelChars s
    else if isLabelChar c then
      let r := labelChars s
      (c :: r.1, r.2)
    else ([], c :: s)

/-- `mLabelRule`. -/
def label : Parser String := fun s =>
  let r := labelChars s
  if r.1 = [] then none else some (String.ofList r.1, r.2)

/-- `mOutputChannelRule`: a single label, or labels in square brackets. -/
def outputChannel : Parser (List String) := fun s =>
  match label s with
  | some r => some ([r.1], r.2)
  | none =>
    (char '[' s).bind fun opening =>
      let labels := (list label ',' opening.2).getD ([], opening.2)
      (char ']' labels.2).map fun closing => (labels.1, closing.2)

/-- The whole text, which may be empty. -/
def parseOutputChannels (strVal : String) : Except Abort (List (List String)) :=
  let state := (list outputChannel ',' strVal.toList).getD ([], skip strVal.toList)
  if state.2 ≠ [] then
    .error (.exception (.invalidArgument "The outputChannels attribute is invalid."))
  else .ok state.1

def parse (tree : PropertyTree) (chObj : ChannelObject F) : Except Abort (ChannelObject F) :=
  Except.mapError (Abort.rethrow "Error while parsing channel object: ") do
    let obj ← ObjectParser.parse env tree chObj.toObject
    let diffuseness := tree.getDefault env.getFloat ["diffuseness"] 0
    let outChannelStr ← tree.get some ["outputChannels"]
    let channelIds ← parseOutputChannels outChannelStr
    if channelIds.length ≠ obj.numberOfChannels then
      .error (.exception (.invalidArgument ("ChannelObjectParser::parse() Number of output " ++
        "channels does not match the number of object channels.")))
    else .ok { toObject := obj, outputChannels := channelIds, diffuseness := diffuseness }

/-- The output of a list of labels. -/
def outputChannelText : List String → String
  | [] => "[]"
  | [channel] => channel
  | channels => "[ " ++ commaText channels ++ " ]"

/-- The output of all lists.  If there is none, the loop starts behind the end of the container. -/
def outputChannelsText (outChannels : List (List String)) : Except Abort String :=
  if outChannels = [] then .error .undefined
  else .ok (commaText (outChannels.map outputChannelText))

/-- The diffuseness is written unless it is zero. -/
def writeDiffuseness (diffuseness : F) (tree : PropertyTree) : PropertyTree :=
  if diffuseness ≠ 0 then tree.put ["diffuseness"] (env.putFloat diffuseness) else tree

def write (type : ObjectTypeId) (chObj : ChannelObject F) (tree : PropertyTree) :
    Except Abort PropertyTree :=
  let tree := ObjectParser.write env type chObj.toObject tree
  if chObj.numberOfChannels ≠ chObj.outputChannels.length then
    .error (.exception (.invalidArgument ("ChannelObjectParser::write(): Object is " ++
      "inconsistent, because the number of output channels does not the number of object " ++
      "channels.")))
  else do
    let tree := writeDiffuseness env chObj.diffuseness tree
    let outChannelStr ← outputChannelsText chObj.outputChannels
    return tree.put ["outputChannels"] outChannelStr

end ChannelObjectParser

/-! ### Point sources with reverberation -/

namespace PointSourceWithReverbParser

/-- `DiscreteReflection::setReflectionFilters()`: the remaining filters get the default. -/
def setReflectionFilters (newFilters : List (BiquadCoefficient F)) :
    Except Abort (List.Vector (BiquadCoefficient F) cNumDiscreteReflectionBiquads) :=
  if h : newFilters.length ≤ cNumDiscreteReflectionBiquads then
    .ok ⟨newFilters ++ List.replicate (cNumDiscreteReflectionBiquads - newFilters.length)
      BiquadCoefficient.default, by simp; omega⟩
  else .error (.exception (.invalidArgument ("PointSourceWithReverbParser: The number of biquad " ++
    "sections for an early reflection exceeds the maximum admissible value.")))

def parseReflection (earlyTree : PropertyTree) : Except Abort (DiscreteReflection F) := do
  let posTree ← earlyTree.getChild ["position"]
  let (posX, posY, posZ) ← PointSourceParser.parsePosition env posTree
  let delay ← earlyTree.get env.getFloat ["delay"]
  let level ← earlyTree.get env.getFloat ["level"]
  let biquadTree ← earlyTree.getChild ["biquadsos"]
  let biqList ← BiquadCoefficientList.loadJson env biquadTree
  let filters ← setReflectionFilters biqList
  return {
    positionX := posX
    positionY := posY
    positionZ := posZ
    delay := delay
    level := level
    reflectionFilters := filters }

def parseReflections (roomTree : PropertyTree) : Except Abort (List (DiscreteReflection F)) :=
  if roomTree.count "ereflect" = 0 then .ok []
  else do
    let ereflTree ← roomTree.getChild ["ereflect"]
    loadAll (parseReflection env) (ereflTree.equalRange "")

/-- One of the attributes of the late reverberation, which has a value for each subband. -/
def parseCoeffs (lateTree : PropertyTree) (key : String) : Except Abort (LateReverbCoeffs F) := do
  let text ← lateTree.get some [key]
  let values ← FloatSequence.parse env.capacity env.float_ text
  if h : values.length = cNumberOfSubBands then .ok ⟨values, h⟩
  else .error (.exception (.invalidArgument ("The number of elements in the \"lreverb.late\" " ++
    "attribute must match the fixed number of subbands.")))

def parseLateReverb (lateTree : PropertyTree) : Except Abort (LateReverb F) := do
  let onset ← lateTree.get env.getFloat ["delay"]
  let levels ← parseCoeffs env lateTree "level"
  let attackTimes ← parseCoeffs env lateTree "attacktime"
  let decayCoeffs ← parseCoeffs env lateTree "decayconst"
  return {
    onsetDelay := onset
    attackTimes := attackTimes
    decayCoeffs := decayCoeffs
    levels := levels }

/-- The room, which must contain exactly one late reverberation. -/
def parseRoom (roomTree : PropertyTree) :
    Except Abort (List (DiscreteReflection F) × LateReverb F) := do
  let reflections ← parseReflections env roomTree
  if roomTree.count "lreverb" ≠ 1 then
    .error (.exception
      (.invalidArgument "Object must contain exactly one \"room.lreverb\" element."))
  else do
    let lateTree ← roomTree.getChild ["lreverb"]
    let lateReverb ← parseLateReverb env lateTree
    return (reflections, lateReverb)

def parse (tree : PropertyTree) (src : PointSourceWithReverb F) :
    Except Abort (PointSourceWithReverb F) :=
  Except.mapError (Abort.rethrow "Error while parsing point source with reverb: object: ") do
    let pointSrc ← PointSourceParser.parse env tree src.toPointSource
    if tree.count "room" ≠ 1 then
      .error (.exception (.invalidArgument "Object must contain exactly one \"room\" element."))
    else do
      let roomTree ← tree.getChild ["room"]
      let room ← parseRoom env roomTree
      return { toPointSource := pointSrc, discreteReflections := room.1, lateReverb := room.2 }

def writeReflection (refl : DiscreteReflection F) : PropertyTree :=
  let tree := new.put ["delay"] (env.putFloat refl.delay)
  let tree := tree.put ["level"] (env.putFloat refl.level)
  let tree := tree.put ["position", "x"] (env.putFloat refl.positionX)
  let tree := tree.put ["position", "y"] (env.putFloat refl.positionY)
  let tree := tree.put ["position", "z"] (env.putFloat refl.positionZ)
  tree.addChild "biquadsos" (BiquadCoefficientList.writeJson env refl.reflectionFilters.toList new)

def writeLateReverb (lateReverb : LateReverb F) : PropertyTree :=
  let text (coeffs : LateReverbCoeffs F) := FloatSequence.toString env.insertFloat coeffs.toList
  let tree := new.put ["delay"] (env.putFloat lateReverb.onsetDelay)
  let tree := tree.put ["level"] (text lateReverb.levels)
  let tree := tree.put ["attacktime"] (text lateReverb.attackTimes)
  tree.put ["decayconst"] (text lateReverb.decayCoeffs)

def writeRoom (pswdObj : PointSourceWithReverb F) : PropertyTree :=
  let roomTree :=
    if pswdObj.discreteReflections.isEmpty then new
    else new.addChild "ereflect"
      (new.addChildren "" (pswdObj.discreteReflections.map (writeReflection env)))
  roomTree.putChild "lreverb" (writeLateReverb env pswdObj.lateReverb)

def write (type : ObjectTypeId) (pswdObj : PointSourceWithReverb F) (tree : PropertyTree) :
    PropertyTree :=
  let tree := PointSourceParser.write env type pswdObj.toPointSource tree
  tree.putChild "room" (writeRoom env pswdObj)

end PointSourceWithReverbParser

/-! ### The parser of an object -/

namespace AnyObject

/-- The parser that is registered for the class of the object. -/
def parse (tree : PropertyTree) : AnyObject F → Except Abort (AnyObject F)
  | pointSource o => (PointSourceParser.parse env tree o).map pointSource
  | planeWave o => (PlaneWaveParser.parse env tree o).map planeWave
  | diffuseSource o => (DiffuseSourceParser.parse env tree o).map diffuseSource
  | pointSourceWithDiffuseness o =>
    (PointSourceWithDiffusenessParser.parse env tree o).map pointSourceWithDiffuseness
  | pointSourceWithReverb o =>
    (PointSourceWithReverbParser.parse env tree o).map pointSourceWithReverb
  | pointSourceExtent o => (PointSourceExtentParser.parse env tree o).map pointSourceExtent
  | hoaSource o => (HoaSourceParser.parse env tree o).map hoaSource
  | channelObject o => (ChannelObjectParser.parse env tree o).map channelObject

/-- `write()` of the same parser. -/
def write (obj : AnyObject F) (tree : PropertyTree) : Except Abort PropertyTree :=
  match obj with
  | pointSource o => .ok (PointSourceParser.write env obj.type o tree)
  | planeWave o => .ok (PlaneWaveParser.write env obj.type o tree)
  | diffuseSource o => .ok (DiffuseSourceParser.write env obj.type o tree)
  | pointSourceWithDiffuseness o =>
    .ok (PointSourceWithDiffusenessParser.write env obj.type o tree)
  | pointSourceWithReverb o => .ok (PointSourceWithReverbParser.write env obj.type o tree)
  | pointSourceExtent o => .ok (PointSourceExtentParser.write env obj.type o tree)
  | hoaSource o => .ok (HoaSourceParser.write env obj.type o tree)
  | channelObject o => ChannelObjectParser.write env obj.type o tree

end AnyObject

end Visr
