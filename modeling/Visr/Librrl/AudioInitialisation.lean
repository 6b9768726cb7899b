import Mathlib.Data.List.Sort
import Visr.Librrl.PortOffsets
import Visr.Librrl.SignalRoutingInternal

/-!
# Initialisation of the audio connections

The communication pool contains a buffer for each send channel of a flow.  A receive port uses the
buffers of its senders, if these are next to each other.  Otherwise a routing component is inserted,
which copies the channels of the senders to new buffers.
-/

namespace Visr

/-- `std::partition`, which moves the elements with a property to the front.  The order of the
elements is not specified otherwise. -/
structure PortOrder where
  partition : (AudioPort → Bool) → List AudioPort → List AudioPort
  perm : ∀ p l, (partition p l).Perm l
  front : ∀ p l, ∃ l₁ l₂, partition p l = l₁ ++ l₂ ∧ (∀ a ∈ l₁, p a = true) ∧
    ∀ a ∈ l₂, p a = false

/-- The different ports of a list, in the order of their addresses. -/
def sortedPorts (ports : List AudioPort) : List AudioPort :=
  (ports.insertionSort fun a b => a.address ≤ b.address).dedup

theorem mem_sortedPorts {ports : List AudioPort} {port : AudioPort} :
    port ∈ sortedPorts ports ↔ port ∈ ports := by
  rw [sortedPorts, List.mem_dedup, List.mem_insertionSort]

/-- The different sample types of a list, in the order of their enumerators. -/
def sortedSampleTypes (types : List AudioSampleType) : List AudioSampleType :=
  (types.insertionSort fun a b => a.id ≤ b.id).dedup

theorem mem_sortedSampleTypes {types : List AudioSampleType} {sampleType : AudioSampleType} :
    sampleType ∈ sortedSampleTypes types ↔ sampleType ∈ types := by
  rw [sortedSampleTypes, List.mem_dedup, List.mem_insertionSort]

/-- The alignment of the channels, `cVectorAlignmentBytes`. -/
def cVectorAlignmentBytes : ℕ := 64

/-- What does not depend on the flow. -/
structure AudioEnvironment (root : Component) where
  order : PortOrder
  addresses : ObjectAddresses root
  period : ℕ
  basePointer : ℕ
  /-- The pool is allocated aligned. -/
  aligned : cVectorAlignmentBytes ∣ basePointer

/-! ### Channel numbers -/

/-- The numbers of the channels of one sample type. -/
structure TypedOffsets where
  sendOffsets : PortOffsetLookup
  receiveOffsets : PortOffsetLookup
  sendPortOffset : ℕ

namespace TypedOffsets

def empty : TypedOffsets := ⟨[], [], 0⟩

/-- The next numbers are those of a send port. -/
def addSendPort (offsets : TypedOffsets) (port : AudioPort) : TypedOffsets :=
  { offsets with
    sendOffsets := offsets.sendOffsets.insert port offsets.sendPortOffset
    sendPortOffset := offsets.sendPortOffset + port.width }

def addReceivePort (offsets : TypedOffsets) (port : AudioPort) (offset : ℕ) : TypedOffsets :=
  { offsets with receiveOffsets := offsets.receiveOffsets.insert port offset }

end TypedOffsets

/-- The connections so far, and the components that have been inserted. -/
structure AudioInsertions where
  connections : AudioConnectionMap
  components : List SignalRoutingInternal

/-- The numbers of the senders of a port. -/
def sendIndicesOf (sendOffsets : PortOffsetLookup) (sends : ChannelVector) :
    Except Exception (List ℕ) :=
  sends.mapM fun c => match c.bind sendOffsets.channelOffset with
    | some offset => .ok offset
    | none => .error (.logicError ("AudioSignalFlow::initialiseAudio(): Internal logic error" ++
        "Send port not found in offset table."))

/-- The body of the loop over the input channels of a routing component.  Channels that are not
used remain unconnected. -/
def connectRoutingInput (sendOffsets : PortOffsetLookup) (minIndex : ℕ) (sendIndices : List ℕ)
    (routingIn : AudioPort) (connections : AudioConnectionMap) (inputIdx : ℕ) :
    Except Exception AudioConnectionMap :=
  let channelIndex := minIndex + inputIdx
  match sendOffsets.find? fun entry =>
      channelIndex ≥ entry.2 && channelIndex < entry.2 + entry.1.width with
  | none => .error (.logicError ("AudioSignalFlow::initialiseAudio(): Internal logic error" ++
      "Send port needed for a contiguous send range of an internal routing port found in offset" ++
      " table."))
  | some entry =>
    let finalSendIndex := channelIndex - entry.2
    if inputIdx ∈ sendIndices then
      .ok (connections.insert (⟨entry.1, finalSendIndex⟩, ⟨routingIn, inputIdx⟩))
    else .ok connections

/-- The connections from a routing component to the receive port. -/
def routingOutputs (routingOut receivePort : AudioPort) : List (AudioChannel × AudioChannel) :=
  (List.range receivePort.width).map fun sigIdx => (⟨routingOut, sigIdx⟩, ⟨receivePort, sigIdx⟩)

/-- A receive port whose senders have consecutive numbers. -/
def connectDirectly (sends : ChannelVector) (localConnections : AudioConnectionMap)
    (receivePort : AudioPort) (x : TypedOffsets × AudioInsertions) :
    Except Exception (TypedOffsets × AudioInsertions) :=
  match sends.head?.join.bind x.1.sendOffsets.channelOffset with
  | none => .error (.logicError
      "Internal logic error: Send port not found in offset lookup table.")
  | some receivePortOffset =>
    .ok (x.1.addReceivePort receivePort receivePortOffset,
      { x.2 with connections := x.2.connections.insertAll localConnections })

/-- The name of the routing component in front of a port. -/
def inputRoutingName (port : AudioPort) : String :=
  fullyQualifiedName port.toPortBase ++ "_inputrouting"

/-- A receive port that needs a routing component. -/
def connectRouted {root : Component} (env : AudioEnvironment root) (sampleType : AudioSampleType)
    (sends : ChannelVector) (receivePort : AudioPort) (x : TypedOffsets × AudioInsertions) :
    Except Exception (TypedOffsets × AudioInsertions) := do
  let channelIndices ← sendIndicesOf x.1.sendOffsets sends
  let minIndex := channelIndices.min?.getD 0
  let sendIndices := channelIndices.map (· - minIndex)
  let routingInputWidth := sendIndices.max?.getD 0 + 1
  let names := root.components.map (·.self.name) ++ x.2.components.map (·.self.name)
  let routingComp ← createSignalRoutingComponent env.addresses x.2.components.length names
    sampleType (inputRoutingName receivePort) routingInputWidth sendIndices
  let connections ← (List.range routingInputWidth).foldlM
    (connectRoutingInput x.1.sendOffsets minIndex sendIndices routingComp.input) x.2.connections
  -- the receive port uses the buffers of the routing component
  let offsets := (x.1.addReceivePort routingComp.input minIndex).addReceivePort receivePort
    x.1.sendPortOffset
  return (offsets.addSendPort routingComp.output,
    ⟨connections.insertAll (routingOutputs routingComp.output receivePort),
      x.2.components ++ [routingComp]⟩)

/-- The body of the loop over the receive ports. -/
def connectReceivePort {root : Component} (env : AudioEnvironment root)
    (sampleType : AudioSampleType) (typedConnections : AudioConnectionMap)
    (x : TypedOffsets × AudioInsertions) (receivePort : AudioPort) :
    Except Exception (TypedOffsets × AudioInsertions) :=
  if receivePort.width = 0 then .ok x
  else do
    let localConnections := typedConnections.filter fun connection =>
      connection.2.port = receivePort
    let sends ← sendChannels receivePort localConnections
    let contiguous ← contiguousRange x.1.sendOffsets sends
    if contiguous then connectDirectly sends localConnections receivePort x
    else connectRouted env sampleType sends receivePort x

/-- The channels of one sample type. -/
def initialiseSampleType {root : Component} (env : AudioEnvironment root)
    (originalConnections : AudioConnectionMap) (insertions : AudioInsertions)
    (sampleType : AudioSampleType) : Except Exception (TypedOffsets × AudioInsertions) :=
  if root.isComposite then
    let typedConnections := originalConnections.filter fun connection =>
      connection.1.port.sampleType = sampleType
    let allSendPorts := env.order.partition (fun port => isToplevelPort port.toPortBase)
      (sortedPorts (typedConnections.map (·.1.port)))
    let offsets := allSendPorts.foldl TypedOffsets.addSendPort .empty
    let allReceivePorts := env.order.partition (fun port => isToplevelPort port.toPortBase)
      (sortedPorts (typedConnections.map (·.2.port)))
    allReceivePorts.foldlM (connectReceivePort env sampleType typedConnections)
      (offsets, insertions)
  else
    -- the ports of an atomic component need buffers themselves
    .ok (root.audioPorts.foldl TypedOffsets.addSendPort .empty, insertions)

/-! ### The pool -/

/-- The distance of two channels. -/
def channelSizeBytes (period : ℕ) (sampleType : AudioSampleType) : ℕ :=
  nextAlignedSize (period * sampleType.typeSize) cVectorAlignmentBytes

/-- The state of the first pass over the sample types. -/
structure PoolLayout where
  offsets : List (AudioSampleType × TypedOffsets)
  insertions : AudioInsertions
  totalAudioPoolSize : ℕ

/-- The body of the first pass. -/
def layoutSampleType {root : Component} (env : AudioEnvironment root)
    (originalConnections : AudioConnectionMap) (layout : PoolLayout)
    (sampleType : AudioSampleType) : Except Exception PoolLayout := do
  let x ← initialiseSampleType env originalConnections layout.insertions sampleType
  let typedPoolSize := x.1.sendPortOffset * channelSizeBytes env.period sampleType
  return ⟨layout.offsets ++ [(sampleType, x.1)], x.2, layout.totalAudioPoolSize + typedPoolSize⟩

/-- The sample types of a flow. -/
def usedSampleTypes (root : Component) (originalConnections : AudioConnectionMap) :
    List AudioSampleType :=
  if root.isComposite then sortedSampleTypes (originalConnections.map (·.1.port.sampleType))
  else sortedSampleTypes (root.audioPorts.map (·.sampleType))

/-- The numbers of all channels. -/
def layoutPool {root : Component} (env : AudioEnvironment root)
    (originalConnections : AudioConnectionMap) : Except Exception PoolLayout :=
  (usedSampleTypes root originalConnections).foldlM (layoutSampleType env originalConnections)
    ⟨[], ⟨[], []⟩, 0⟩

/-- The buffers that have been assigned so far. -/
abbrev BufferTable := AudioPort → Option Buffer

namespace BufferTable

/-- `setBufferConfig`. -/
def setBufferConfig (buffers : BufferTable) (port : AudioPort) (buffer : Buffer) : BufferTable :=
  Function.update buffers port (some buffer)

/-- The address of a channel, if its port has got buffers. -/
def channelPointer (buffers : BufferTable) (c : AudioChannel) : Option ℕ :=
  (buffers c.port).map fun buffer => buffer.channelPointer c.port.sampleType c.channel

end BufferTable

/-- The buffers for one sample type.  The first component is the offset of the next pool. -/
def assignBuffers (basePointer period : ℕ) (x : ℕ × BufferTable)
    (entry : AudioSampleType × TypedOffsets) : Except Exception (ℕ × BufferTable) :=
  let typeOffset := x.1
  let channelSize := channelSizeBytes period entry.1
  if channelSize % entry.1.typeSize ≠ 0 then
    .error (.logicError ("AudioSignalFlow::initialiseAudio(): Internal logic error" ++
      "Aligned channel stride is not a multiple of the sample size."))
  else
    let channelSizeSamples := channelSize / entry.1.typeSize
    let assign (buffers : BufferTable) (e : AudioPort × ℕ) : BufferTable :=
      buffers.setBufferConfig e.1 ⟨basePointer + (typeOffset + channelSize * e.2),
        channelSizeSamples⟩
    let typedChannelCount := (entry.2.sendOffsets.map fun e => e.1.width).sum
    .ok (typeOffset + typedChannelCount * channelSize,
      entry.2.receiveOffsets.foldl assign (entry.2.sendOffsets.foldl assign x.2))

/-- What has been set up for the audio connections. -/
structure AudioSetup where
  finalConnections : AudioConnectionMap
  infrastructureComponents : List SignalRoutingInternal
  poolSize : ℕ
  buffers : BufferTable

/-- The buffers of all ports, and the connections of the adjusted flow. -/
def initialiseAudioConnections {root : Component} (env : AudioEnvironment root)
    (originalConnections : AudioConnectionMap) : Except Exception AudioSetup := do
  let layout ← layoutPool env originalConnections
  let x ← layout.offsets.foldlM (assignBuffers env.basePointer env.period) (0, fun _ => none)
  if x.1 ≠ layout.totalAudioPoolSize then
    .error (.logicError ("AudioSignalFlow::initialiseAudio(): Internal logic error: " ++
      "Size of audio channel buffers differs from previously calculated value."))
  else
    return ⟨layout.insertions.connections, layout.insertions.components,
      layout.totalAudioPoolSize, x.2⟩

end Visr
