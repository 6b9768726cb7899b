import Mathlib.Data.List.Sort
import Mathlib.Logic.Function.Basic
import Visr.Libpanning.LoudspeakerArray

/-!
# Loading loudspeaker configurations

A loudspeaker array is read from an XML document.  The regular loudspeakers are traversed twice:
first for their ids and channels, which are then sorted, and a second time for their data.
-/

namespace Visr

open PropertyTree

/-- What the code runs with, beyond number formats and memory. -/
structure XmlPlatform (F : Type) extends Platform F where
  /-- Conversion to `std::size_t`. -/
  getIndex : String → Option ℕ
  getBool : String → Option Bool
  /-- `std::pow( 10.0f, gainDB / 20.0f )`. -/
  gainFromDB : F → F
  /-- `efl::dB2linear()`. -/
  dB2linear : F → F

def invalidArgument {α : Type} (what : String) : Except Abort α :=
  .error (.exception (.invalidArgument what))

/-- The path of an attribute. -/
def xmlAttribute (name : String) : List String := ["<xmlattr>", name]

/-- `boost::is_any_of( "\t " )`. -/
def isBlank (c : Char) : Bool := c = '\t' || c = ' '

/-- `boost::trim_if()` for blanks. -/
def trim (id : String) : String :=
  String.ofList ((id.toList.dropWhile isBlank).reverse.dropWhile isBlank).reverse

def isIdCharacter (c : Char) : Bool :=
  c.isAlphanum || ['@', '&', '(', ')', '+', '/', ':', '_', '-'].contains c

/-- `std::regex_match( id, idExpression )`. -/
def matchesIdExpression (id : String) : Bool := id ≠ "" && id.toList.all isIdCharacter

/-- An element of a matrix is written without a check of the column.  The elements of the
rows follow each other. -/
def writeElement {F : Type} (numberOfRows numberOfColumns : ℕ) (m : ℕ → ℕ → F)
    (rowIdx colIdx : ℕ) (value : F) : Except Abort (ℕ → ℕ → F) :=
  let address := rowIdx * numberOfColumns + colIdx
  if address < numberOfRows * numberOfColumns then
    .ok fun row col =>
      if col < numberOfColumns ∧ row * numberOfColumns + col = address then value else m row col
  else .error .undefined

/-- The data stored at the index of a loudspeaker or of a subwoofer. -/
structure SpeakerEntry (F : Type) where
  position : XYZ F
  gainAdjustment : F
  delayAdjustment : F
  outputEq : Option (List (BiquadCoefficient F))

/-- The equalisers of a document by their names, and the number of sections of each output. -/
structure EqConfiguration (F : Type) where
  eqLookupTable : OrderedMap String (List (BiquadCoefficient F))
  numEqSections : ℕ

namespace LoudspeakerArray

variable {F : Type} [FloatArithmetic F] (env : XmlPlatform F)

/-! ### Parts of a node -/

def parseCoordNode (node : PropertyTree) (isInfinite is2D : Bool) : Except Abort (XYZ F) :=
  let numCartCoords := node.count "cart"
  let numPolarCoords := node.count "polar"
  if numCartCoords > 1 ∨ numPolarCoords > 1 ∨ ((numCartCoords = 1) ↔ (numPolarCoords = 1)) then
    invalidArgument ("LoudspeakerArray::loadXml(): For each speaker, exactly one \"cart\" or " ++
      "\"polar\" node must exist.`")
  else if numCartCoords = 1 then do
    let coordNode ← node.getChild ["cart"]
    let x ← coordNode.get env.getFloat (xmlAttribute "x")
    let y ← coordNode.get env.getFloat (xmlAttribute "y")
    let z ← if is2D then pure (coordNode.getDefault env.getFloat (xmlAttribute "z") 0)
      else coordNode.get env.getFloat (xmlAttribute "z")
    pure ⟨x, y, z, isInfinite⟩
  else do
    let coordNode ← node.getChild ["polar"]
    let azDegrees ← coordNode.get env.getFloat (xmlAttribute "az")
    let elDegrees ← if is2D then pure (coordNode.getDefault env.getFloat (xmlAttribute "el") 0)
      else coordNode.get env.getFloat (xmlAttribute "el")
    let r ← coordNode.get env.getFloat (xmlAttribute "r")
    let az := FloatArithmetic.degree * azDegrees
    let el := FloatArithmetic.degree * elDegrees
    pure ⟨FloatArithmetic.cos az * FloatArithmetic.cos el * r,
      FloatArithmetic.sin az * FloatArithmetic.cos el * r, FloatArithmetic.sin el * r, isInfinite⟩

/-- The gain, linear or in decibels, and the delay. -/
def parseGainDelayAdjustments (node : PropertyTree) : Except Abort (F × F) :=
  let delay := node.getDefault env.getFloat (xmlAttribute "delay") 0
  match node.getOptional env.getFloat (xmlAttribute "gain"),
      node.getOptional env.getFloat (xmlAttribute "gainDB") with
  | some _, some _ =>
    invalidArgument ("ArrayConfiguration::loadXml(): The \"gain\" or \"gainDB\" attributes are " ++
      "mutually exclusive.")
  | some gainLinear, none => .ok (gainLinear, delay)
  | none, some gainDB => .ok (env.gainFromDB gainDB, delay)
  | none, none => .ok (1, delay)

/-- An equaliser with a name that is there already is ignored. -/
def parseChannelLookup (tree : PropertyTree) :
    Except Abort (OrderedMap String (List (BiquadCoefficient F))) :=
  (tree.equalRange "filterSpec").foldlM (fun table nodeTree => do
    let specName ← nodeTree.get some (xmlAttribute "name")
    let biqList ← BiquadCoefficientList.loadXml env.toPlatform nodeTree
    pure (table.insert specName biqList)) OrderedMap.empty

/-- The optional node with the equalisers. -/
def parseEqConfiguration (treeRoot : PropertyTree) : Except Abort (Option (EqConfiguration F)) :=
  let numEqConfigs := treeRoot.count "outputEqConfiguration"
  if numEqConfigs ≥ 2 then
    invalidArgument ("LoudspeakerArray::loadXml(): Either zero or one \"outputEqConfiguration\" " ++
      "nodes are admissible.")
  else if numEqConfigs = 1 then do
    let eqNode ← treeRoot.getChild ["outputEqConfiguration"]
    let numEqSections ← eqNode.get env.getIndex (xmlAttribute "numberOfBiquads")
    let eqLookupTable ← parseChannelLookup env eqNode
    pure (some ⟨eqLookupTable, numEqSections⟩)
  else pure none

/-- `BiquadCoefficientMatrix::setFilter()` for an index in range: the row that is stored. -/
def filterRow (numberOfSections : ℕ) (newFilter : List (BiquadCoefficient F)) :
    Except Abort (List (BiquadCoefficient F)) :=
  if newFilter.length > numberOfSections then
    invalidArgument ("BiquadCoefficientMatrix::setFilter(): The number index exceeds maximum " ++
      "admissible value.")
  else .ok (newFilter ++
    List.replicate (numberOfSections - newFilter.length) BiquadCoefficient.default)

/-- The row of the equaliser that a node names. -/
def parseEqFilter (eqs : EqConfiguration F) (tree : PropertyTree) :
    Except Abort (List (BiquadCoefficient F)) :=
  match tree.getOptional some (xmlAttribute "eq") with
  | some eqId =>
    match eqs.eqLookupTable.find? eqId with
    | none => invalidArgument "LoudspeakerArray::loadXml(): ."
    | some newFilter => filterRow eqs.numEqSections newFilter
  | none => filterRow eqs.numEqSections []

/-- The row of a node, if there are equalisers. -/
def parseOutputEq (eqs : Option (EqConfiguration F)) (node : PropertyTree) :
    Except Abort (Option (List (BiquadCoefficient F))) :=
  match eqs with
  | none => .ok none
  | some eqs => (parseEqFilter eqs node).map some

/-- The data of a regular loudspeaker. -/
def parseSpeaker (eqs : Option (EqConfiguration F)) (isInfinite is2D : Bool)
    (node : PropertyTree) : Except Abort (SpeakerEntry F) := do
  let position ← parseCoordNode env node isInfinite is2D
  let adjustments ← parseGainDelayAdjustments env node
  let outputEq ← parseOutputEq eqs node
  pure ⟨position, adjustments.1, adjustments.2, outputEq⟩

/-! ### The regular loudspeakers -/

/-- The first traversal: the ids found so far, and the channels in the order of the document.
The element of `m_channel` that is assigned has not been assigned before. -/
def parseId (s : OrderedMap String ℕ × List ℕ) (childTree : PropertyTree) :
    Except Abort (OrderedMap String ℕ × List ℕ) := do
  let rawId ← childTree.get some (xmlAttribute "id")
  let id := trim rawId
  if ¬matchesIdExpression id ∨ (s.1.find? id).isSome then
    invalidArgument ("LoudspeakerArray::loadXml(): The loudspeaker id must be unique and must " ++
      "only contain alphanumeric characters or \" @ & ( ) + / : - _ \" ")
  else do
    let chIdx ← childTree.get env.getIndex (xmlAttribute "channel")
    if chIdx < 1 then
      invalidArgument ("LoudspeakerArray::loadXml(): The channel id must be greater or equal " ++
        "than one.")
    else pure (s.1.set id 0, s.2 ++ [chIdx])

def parseIds (id : OrderedMap String ℕ) (speakerNodes : List PropertyTree) :
    Except Abort (OrderedMap String ℕ × List ℕ) :=
  speakerNodes.foldlM (parseId env) (id, [])

/-- Stores the data of a loudspeaker or subwoofer.  There are rows for equalisers only if the
document has any. -/
def storeEntry (a : LoudspeakerArray F) (index : ℕ) (entry : SpeakerEntry F) :
    LoudspeakerArray F :=
  { a with
    position := Function.update a.position index entry.position
    gainAdjustment := Function.update a.gainAdjustment index entry.gainAdjustment
    delayAdjustment := Function.update a.delayAdjustment index entry.delayAdjustment
    outputEqs := match a.outputEqs, entry.outputEq with
      | some rows, some row => some (Function.update rows index row)
      | rows, _ => rows }

/-- The second traversal, where blanks are not removed from the id. -/
def loadSpeaker (eqs : Option (EqConfiguration F)) (a : LoudspeakerArray F)
    (childTree : PropertyTree) : Except Abort (LoudspeakerArray F) := do
  let id ← childTree.get some (xmlAttribute "id")
  let chIdx ← childTree.get env.getIndex (xmlAttribute "channel")
  let offset := a.channel.idxOf chIdx
  let entry ← parseSpeaker env eqs a.isInfinite a.is2D childTree
  pure { storeEntry a offset entry with id := a.id.set id offset }

def loadSpeakers (eqs : Option (EqConfiguration F)) (a : LoudspeakerArray F)
    (speakerNodes : List PropertyTree) : Except Abort (LoudspeakerArray F) :=
  speakerNodes.foldlM (loadSpeaker env eqs) a

/-! ### The virtual loudspeakers -/

/-- The index of the loudspeaker with an id. -/
def lookupSpeaker (a : LoudspeakerArray F) (message id : String) : Except Abort ℕ :=
  match a.id.find? id with
  | none => invalidArgument message
  | some index => if id.isEmpty then invalidArgument message else .ok index

/-- A route from the virtual loudspeaker of a row. -/
def loadRoute (numVirtualSpeakers row : ℕ) (a : LoudspeakerArray F) (childTree : PropertyTree) :
    Except Abort (LoudspeakerArray F) := do
  let lspId ← childTree.get some (xmlAttribute "lspId")
  let gainDB ← childTree.get env.getFloat (xmlAttribute "gainDB")
  let column ← lookupSpeaker a
    "LoudspeakerArray::loadXml(): Cannot find loudspeaker id in virtual speaker routing." (trim lspId)
  let reRoutingCoeff ← writeElement numVirtualSpeakers a.getNumRegularSpeakers a.reRoutingCoeff
    row column (env.dB2linear gainDB)
  pure { a with reRoutingCoeff := reRoutingCoeff }

/-- A virtual loudspeaker with its index. -/
def loadVirtualSpeaker (numVirtualSpeakers : ℕ) (a : LoudspeakerArray F)
    (node : PropertyTree × ℕ) : Except Abort (LoudspeakerArray F) := do
  let rawId ← node.1.get some (xmlAttribute "id")
  let id := trim rawId
  if ¬matchesIdExpression id ∨ (a.id.find? id).isSome then
    invalidArgument ("LoudspeakerArray::loadXml(): The virtual loudspeaker id must be unique and " ++
      "must only contain alphanumeric characters or \" @ & ( ) + / : - _ \" ")
  else do
    let a := { a with id := a.id.set id node.2 }
    let a ← (node.1.equalRange "route").foldlM
      (loadRoute env numVirtualSpeakers (node.2 - a.getNumRegularSpeakers)) a
    let position ← parseCoordNode env node.1 a.isInfinite a.is2D
    pure { a with position := Function.update a.position node.2 position }

/-- The indices of virtual loudspeakers continue those of the regular ones. -/
def loadVirtualSpeakers (a : LoudspeakerArray F) (virtualSpeakerNodes : List PropertyTree) :
    Except Abort (LoudspeakerArray F) :=
  (virtualSpeakerNodes.zipIdx a.getNumRegularSpeakers).foldlM
    (loadVirtualSpeaker env virtualSpeakerNodes.length) a

/-! ### Triplets and subwoofers -/

/-- The index `-1`, as an unsigned number. -/
def unusedIndex : ℕ := 2 ^ 64 - 1

omit [FloatArithmetic F] in
def loadTriplet (a : LoudspeakerArray F) (childTree : PropertyTree) :
    Except Abort (ℕ × ℕ × ℕ) := do
  let message := "LoudspeakerArray::loadXml(): Cannot find triplet loudspeaker id."
  let tid1 ← childTree.get some (xmlAttribute "l1")
  let tid2 ← childTree.get some (xmlAttribute "l2")
  let l1 ← lookupSpeaker a message (trim tid1)
  let l2 ← lookupSpeaker a message (trim tid2)
  if a.is2D then pure (l1, l2, unusedIndex)
  else do
    let tid3 ← childTree.get some (xmlAttribute "l3")
    let l3 ← lookupSpeaker a message (trim tid3)
    pure (l1, l2, l3)

/-- The tokens between separators, where adjacent separators count as one. -/
def compressTokens : List (List Char) → List (List Char)
  | [] => []
  | [last] => [last]
  | token :: tokens =>
    if token.isEmpty then compressTokens tokens else token :: compressTokens tokens

/-- `boost::split()` with `boost::token_compress_on`. -/
def splitTokens (text : List Char) : List (List Char) :=
  match text.splitOn ',' with
  | [] => []
  | first :: tokens => first :: compressTokens tokens

/-- The weights of the loudspeakers assigned to a subwoofer. -/
def parseWeights (subNode : PropertyTree) (count : ℕ) : Except Abort (List F) :=
  match subNode.getOptional some (xmlAttribute "weights") with
  | none => .ok (List.replicate count 1)
  | some weightStr => do
    let speakerWeights ← FloatSequence.parse env.capacity env.float_ weightStr
    if speakerWeights.length ≠ count then
      invalidArgument "The loudspeaker index list and the weight vector must have the same length."
    else pure speakerWeights

/-- A subwoofer with its number. -/
def loadSubwoofer (eqs : Option (EqConfiguration F)) (numSubwoofers : ℕ)
    (a : LoudspeakerArray F) (node : PropertyTree × ℕ) : Except Abort (LoudspeakerArray F) := do
  let subChannel ← node.1.get env.getIndex (xmlAttribute "channel")
  let speakerIndicesStr ← node.1.get some (xmlAttribute "assignedLoudspeakers")
  let speakerIndices := (splitTokens (speakerIndicesStr.toList.filter fun c =>
    !Grammar.isSpace c)).map String.ofList
  let columns ← loadAll (lookupSpeaker a
    "At least one of the specified loudspeaker index in subwoofer's list does not exist.")
    speakerIndices
  let weights ← parseWeights env node.1 speakerIndices.length
  let subwooferGains ← (columns.zip weights).foldlM (fun gains entry =>
    writeElement numSubwoofers a.getNumRegularSpeakers gains node.2 entry.1 entry.2)
    a.subwooferGains
  let adjustments ← parseGainDelayAdjustments env node.1
  let outputEq ← parseOutputEq eqs node.1
  let index := a.getNumRegularSpeakers + node.2
  pure
    { storeEntry a index ⟨a.position index, adjustments.1, adjustments.2, outputEq⟩ with
      subwooferChannels := a.subwooferChannels ++ [subChannel]
      subwooferGains := subwooferGains }

def loadSubwoofers (eqs : Option (EqConfiguration F)) (a : LoudspeakerArray F)
    (subwooferNodes : List PropertyTree) : Except Abort (LoudspeakerArray F) :=
  subwooferNodes.zipIdx.foldlM (loadSubwoofer env eqs subwooferNodes.length) a

/-! ### The document -/

/-- `std::adjacent_find()`. -/
def adjacentFind : List ℕ → Bool
  | a :: b :: l => a = b || adjacentFind (b :: l)
  | _ => false

/-- The checks of the channels at the end. -/
def checkChannels (channels subwooferChannels : List ℕ) : Except Abort Unit :=
  let spkIndicesSorted := channels.mergeSort
  let subIndicesSorted := subwooferChannels.mergeSort
  if adjacentFind spkIndicesSorted then
    invalidArgument "LoudspeakerArray::loadXml(): Duplicated loudspeaker channel indices."
  else if adjacentFind subIndicesSorted then
    invalidArgument "LoudspeakerArray::loadXml(): Duplicated subwoofer channel indices."
  else if spkIndicesSorted.any subIndicesSorted.contains then
    invalidArgument ("LoudspeakerArray::loadXml(): Loudspeaker and subwoofer channels indices " ++
      "are not exclusive.")
  else .ok ()

def parseDimension (treeRoot : PropertyTree) : Except Abort Bool :=
  match treeRoot.getOptional some (xmlAttribute "dimension") with
  | none => .ok false
  | some dimension =>
    if dimension = "2" then .ok true
    else if dimension = "3" then .ok false
    else invalidArgument ("LoudspeakerArray::loadXml(): If given, the \"dimension\" atttribute " ++
      "must be either \"2\" or \"3\".")

/-- The array between the two traversals.  The elements of resized vectors that are new get their
values later. -/
def prepare (a : LoudspeakerArray F) (is2D isInfinite : Bool) (numTotalSpeakers : ℕ)
    (eqs : Option (EqConfiguration F)) (idsAndChannels : OrderedMap String ℕ × List ℕ) :
    LoudspeakerArray F :=
  { a with
    is2D := is2D
    isInfinite := isInfinite
    numberOfSpeakers := numTotalSpeakers
    channel := idsAndChannels.2.mergeSort
    id := idsAndChannels.1
    reRoutingCoeff := fun _ _ => 0
    outputEqs := eqs.map fun eqs _ => List.replicate eqs.numEqSections BiquadCoefficient.default }

/-- Loads a document that has been read.  The ids that the array had before are kept. -/
def loadXmlTree (a : LoudspeakerArray F) (parseTree : PropertyTree) :
    Except Abort (LoudspeakerArray F) := do
  let treeRoot ← parseTree.getChild ["panningConfiguration"]
  let is2D ← parseDimension treeRoot
  let isInfinite := treeRoot.getDefault env.getBool (xmlAttribute "infinite") false
  let speakerNodes := treeRoot.equalRange "loudspeaker"
  let virtualSpeakerNodes := treeRoot.equalRange "virtualspeaker"
  let subwooferNodes := treeRoot.equalRange "subwoofer"
  let eqs ← parseEqConfiguration env treeRoot
  let idsAndChannels ← parseIds env a.id speakerNodes
  let a := prepare a is2D isInfinite (speakerNodes.length + virtualSpeakerNodes.length) eqs
    idsAndChannels
  let a ← loadSpeakers env eqs a speakerNodes
  let a ← loadVirtualSpeakers env a virtualSpeakerNodes
  let triplet ← loadAll (loadTriplet a) (treeRoot.equalRange "triplet")
  let a := { a with triplet := triplet, subwooferChannels := [], subwooferGains := fun _ _ => 0 }
  let a ← loadSubwoofers env eqs a subwooferNodes
  checkChannels a.channel a.subwooferChannels
  pure a

end LoudspeakerArray

end Visr
