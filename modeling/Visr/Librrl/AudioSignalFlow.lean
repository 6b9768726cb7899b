import Visr.Library.Dataflow
import Visr.Librrl.AudioFlattening
import Visr.Librrl.AudioPool
import Visr.Librrl.ParameterInfrastructure
import Visr.Librrl.SchedulingGraph

/-!
# Audio signal flows

The runtime system for a component: its constructor checks the connections, assigns the buffers, and
determines an order of execution.  Each call of `process` executes all atomic components once, between
copies of the external samples.
-/

namespace Visr

open Slices

/-! ### Construction -/

/-- `checkConnectionIntegrity`; the parameter connections are checked only if the audio connections
are consistent. -/
def checkConnectionIntegrity (component : Component) : Except Exception CheckResult :=
  let check := checkAudioConnectionIntegrity component
  if check.result then (checkParameterConnectionIntegrity component).map check.append
  else .ok check

/-- The composite with the routing components that have been inserted. -/
def Component.withRoutings : Component → List SignalRoutingInternal → Component
  | .atomic self aps pps, _ => .atomic self aps pps
  | .composite self aps pps comps acs pcs, routings =>
    .composite self aps pps (comps ++ routings.map SignalRoutingInternal.component) acs pcs

/-- The runtime system after its construction. -/
structure AudioSignalFlow where
  period : ℕ
  setup : AudioSetup
  captureChannels : List ℕ
  playbackChannels : List ℕ
  parameterInfrastructure : ParameterInfrastructure
  processingSchedule : List ComponentRef

/-- The channels of a port. -/
def AudioPort.channels (port : AudioPort) : List AudioChannel :=
  (List.range port.width).map fun idx => ⟨port, idx⟩

/-- The channels of the ports with one direction. -/
def Component.channelsOf (component : Component) (direction : Direction) : List AudioChannel :=
  (component.audioPorts.filter fun port => port.direction = direction).flatMap AudioPort.channels

namespace AudioSignalFlow

/-- The addresses of the external channels.  A port without buffers has no channels. -/
def externalChannels (root : Component) (buffers : BufferTable) (direction : Direction) : List ℕ :=
  (root.channelsOf direction).map fun c => (buffers.channelPointer c).getD 0

/-- The order of execution. -/
def initialiseSchedule (lib : GraphLibrary) (root : Component)
    (audioConnections : AudioConnectionMap) (parameterConnections : ParameterConnectionMap) :
    Except Exception (List ComponentRef) :=
  if !root.isComposite then .ok [root.self]
  else
    match SchedulingGraph.initialise root audioConnections parameterConnections with
    | none => .error (.logicError "")
    | some depGraph => depGraph.sequentialSchedule lib

/-- An exception of `resolvePlaceholders`.  The default is never used. -/
def orLogicError (e : Option Exception) : Exception := e.getD (.logicError "")

/-- The constructor. -/
def create {root : Component} (env : AudioEnvironment root) (factory : CommunicationProtocolFactory)
    (labelling : ComponentLabelling) (lib : GraphLibrary) : Except Exception AudioSignalFlow := do
  let check ← checkConnectionIntegrity root
  if !check.result then
    .error (.runtimeError ("Signal flow graph is inconsistent: " ++ String.join check.messages))
  else
    let originalAudioConnections ← AudioConnectionMap.ofComponent root
    let flatAudioConnections ← originalAudioConnections.resolvePlaceholders.mapError
      fun e => orLogicError e.exception
    let filled ← ParameterConnectionMap.fill root
    if !filled.result then .error (.runtimeError (String.join filled.messages))
    else
      let flatParameterConnections ← filled.connections.resolvePlaceholders.mapError
        fun e => orLogicError e.exception
      let setup ← initialiseAudioConnections env flatAudioConnections
      let parameters ← initialiseParameterInfrastructure factory labelling root
        flatParameterConnections
      if !parameters.1.result then
        .error (.runtimeError
          ("AudioSignalFlow: Parameter infrastructure could not be initialised." ++
            String.join parameters.1.messages))
      else
        -- the routing components belong to the flow by now
        let schedule ← initialiseSchedule lib (root.withRoutings setup.infrastructureComponents)
          setup.finalConnections parameters.2
        return ⟨env.period, setup, externalChannels root setup.buffers .input,
          externalChannels root setup.buffers .output, parameters.1, schedule⟩

/-! ### Processing -/

variable {S β : Type}

/-- What the atomic components do with the samples at their inputs.  Each channel is a block of bytes.
-/
abbrev ComponentBehaviour (S β : Type) := Dataflow.Behaviour ComponentRef S (List β) Exception

/-- The state that changes while blocks are processed. -/
structure State (S β : Type) where
  memory : ℕ → β
  components : S
  blockCounter : ℕ

/-- Where the samples of a channel are. -/
def channelAddress (flow : AudioSignalFlow) (c : AudioChannel) : ℕ :=
  (flow.setup.buffers.channelPointer c).getD 0

/-- The samples of a channel. -/
def readChannel (flow : AudioSignalFlow) (m : ℕ → β) (c : AudioChannel) : List β :=
  load m (flow.channelAddress c) (flow.period * c.port.sampleType.typeSize)

def writeChannel (flow : AudioSignalFlow) (m : ℕ → β) (c : AudioChannel) (bytes : List β) : ℕ → β :=
  store m (flow.channelAddress c) bytes

/-- The channels of an atomic component of the flow. -/
def channelsOf (root : Component) (c : ComponentRef) (direction : Direction) : List AudioChannel :=
  match root.preorder.find? fun component => component.self = c with
  | some component => component.channelsOf direction
  | none => []

/-- The buffers of a port. -/
def bufferOf (flow : AudioSignalFlow) (port : AudioPort) : Buffer :=
  (flow.setup.buffers port).getD ⟨0, 0⟩

/-- `process` of a component of the schedule. -/
def processComponent (flow : AudioSignalFlow) (root : Component) (b : ComponentBehaviour S β)
    (x : S × (ℕ → β)) (c : ComponentRef) : Except Exception (S × (ℕ → β)) :=
  match flow.setup.infrastructureComponents.find? fun routing => routing.self = c with
  | some routing =>
    (routing.process flow.period (flow.bufferOf routing.input) (flow.bufferOf routing.output)
      x.2).map fun m => (x.1, m)
  | none =>
    (b c x.1 ((channelsOf root c .input).map (flow.readChannel x.2))).map fun result =>
      (result.1, ((channelsOf root c .output).zip result.2).foldl
        (fun m e => flow.writeChannel m e.1 e.2) x.2)

/-- The loop over the schedule. -/
def executeComponents (flow : AudioSignalFlow) (root : Component) (b : ComponentBehaviour S β)
    (x : S × (ℕ → β)) : Except Exception (S × (ℕ → β)) :=
  (flow.processingSchedule.foldlM (flow.processComponent root b) x).mapError fun e =>
    .runtimeError ("Exception while executing audio signal flow: " ++ e.what)

/-- The bytes of a sample of the default type. -/
def sampleBytes : ℕ := AudioSampleType.float.typeSize

/-- The samples of an external channel, `vectorCopyStrided` into the pool. -/
def gather (period strideSamples : ℕ) (samples : ℕ → β) : List β :=
  (List.range period).flatMap fun n => load samples (n * strideSamples * sampleBytes) sampleBytes

/-- Writes the samples of an external channel, `vectorCopyStrided` out of the pool. -/
def scatter (period strideSamples : ℕ) (bytes : List β) (samples : ℕ → β) : ℕ → β :=
  (List.range period).foldl (fun samples n =>
    store samples (n * strideSamples * sampleBytes)
      ((bytes.drop (n * sampleBytes)).take sampleBytes)) samples

/-- Processes a block.  The external channels are given by what is found from the pointer to their
first sample. -/
def process (flow : AudioSignalFlow) (root : Component) (b : ComponentBehaviour S β)
    (captureSamples : ℕ → ℕ → β) (captureStrideSamples playbackStrideSamples : ℕ)
    (x : State S β × (ℕ → ℕ → β)) : Except Exception (State S β × (ℕ → ℕ → β)) := do
  let captured := flow.captureChannels.zipIdx.foldl (fun m e =>
    store m e.1 (gather flow.period captureStrideSamples (captureSamples e.2))) x.1.memory
  let result ← (flow.executeComponents root b (x.1.components, captured)).mapError fun e =>
    .invalidArgument ("Error during execution of processing schedule: " ++ e.what)
  let playbackSamples := fun chIdx => match flow.playbackChannels[chIdx]? with
    | some chPtr => scatter flow.period playbackStrideSamples
        (load result.2 chPtr (flow.period * sampleBytes)) (x.2 chIdx)
    | none => x.2 chIdx
  return (⟨result.2, result.1, (x.1.blockCounter + 1) % 2 ^ 64⟩, playbackSamples)

end AudioSignalFlow

end Visr
