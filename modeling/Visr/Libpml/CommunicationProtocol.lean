import Visr.Librrl.PortUtilities

/-!
# Communication protocols

The protocol instances that carry parameters between ports, and the factory that creates
them.  A protocol keeps track of the protocol inputs and outputs attached to it; the
protocol output belongs to the sender and the protocol input to the receiver.
-/

namespace Visr

/-- A protocol input or output: that of a port, or one created by the runtime to connect
the flow to the outside by way of one of its own ports. -/
inductive Endpoint
  | ofPort (port : ParameterPort)
  | external (port : ParameterPort) (protocolType : BitVec 64)
  deriving DecidableEq, Repr

/-- The protocol that an endpoint is made for. -/
def Endpoint.protocolType : Endpoint → BitVec 64
  | ofPort port => port.protocolType
  | external _ protocolType => protocolType

/-- The classes derived from `CommunicationProtocolBase`. -/
inductive ProtocolClass
  | doubleBuffering
  | messageQueue
  | sharedData
  deriving DecidableEq, Repr

def ProtocolClass.name : ProtocolClass → String
  | doubleBuffering => "DoubleBufferingProtocol"
  | messageQueue => "MessageQueueProtocol"
  | sharedData => "SharedDataProtocol"

/-- A protocol instance with the endpoints attached to it. -/
structure CommunicationProtocol where
  protocolClass : ProtocolClass
  protocolType : BitVec 64
  parameterType : BitVec 64
  parameterConfig : ParameterConfig
  inputs : List Endpoint
  outputs : List Endpoint

namespace CommunicationProtocol

/-- Adds a protocol input, unless it is there already. -/
def addInput (protocol : CommunicationProtocol) (port : Endpoint) : CommunicationProtocol :=
  if port ∈ protocol.inputs then protocol
  else { protocol with inputs := protocol.inputs ++ [port] }

/-- Attaches a protocol input.  A message queue takes only one. -/
def connectInput (protocol : CommunicationProtocol) (port : Endpoint) :
    Except Exception CommunicationProtocol :=
  if port.protocolType ≠ protocol.protocolType then
    .error (.invalidArgument
      (protocol.protocolClass.name ++ "::connectInput(): port argument has wrong type."))
  else match protocol.protocolClass with
    | .messageQueue =>
      if protocol.inputs ≠ [] then
        .error (.invalidArgument "MessageQueueProtocol::connectInput(): input port already set.")
      else .ok { protocol with inputs := [port] }
    | _ => .ok (protocol.addInput port)

/-- Attaches a protocol output.  All classes take only one. -/
def connectOutput (protocol : CommunicationProtocol) (port : Endpoint) :
    Except Exception CommunicationProtocol :=
  if port.protocolType ≠ protocol.protocolType then
    .error (.invalidArgument
      (protocol.protocolClass.name ++ "::connectOutput(): port argument has wrong type."))
  else if protocol.outputs ≠ [] then
    .error (.invalidArgument
      (protocol.protocolClass.name ++ "::connectOutput(): output port already set."))
  else .ok { protocol with outputs := [port] }

theorem addInput_spec (protocol : CommunicationProtocol) (port : Endpoint) :
    (protocol.addInput port).protocolType = protocol.protocolType ∧
      (protocol.addInput port).outputs = protocol.outputs ∧
      ∀ e, e ∈ (protocol.addInput port).inputs ↔ e ∈ protocol.inputs ∨ e = port := by
  unfold addInput
  by_cases hmem : port ∈ protocol.inputs
  · rw [if_pos hmem]
    refine ⟨rfl, rfl, fun e => ⟨Or.inl, ?_⟩⟩
    rintro (he | rfl)
    · exact he
    · exact hmem
  · rw [if_neg hmem]
    exact ⟨rfl, rfl, by simp⟩

/-- What a successful attachment of an input changes. -/
theorem connectInput_ok {protocol protocol' : CommunicationProtocol} {port : Endpoint}
    (h : protocol.connectInput port = .ok protocol') :
    port.protocolType = protocol.protocolType ∧ protocol'.protocolType = protocol.protocolType ∧
      protocol'.outputs = protocol.outputs ∧
      ∀ e, e ∈ protocol'.inputs ↔ e ∈ protocol.inputs ∨ e = port := by
  unfold connectInput at h
  by_cases htype : port.protocolType ≠ protocol.protocolType
  · rw [if_pos htype] at h
    cases h
  rw [if_neg htype] at h
  refine ⟨not_not.mp htype, ?_⟩
  have hadd := protocol.addInput_spec port
  cases hclass : protocol.protocolClass with
  | messageQueue =>
    rw [hclass] at h
    -- a queue has one input at most
    by_cases hset : protocol.inputs ≠ []
    · simp only [if_pos hset] at h
      cases h
    · simp only [if_neg hset] at h
      cases h
      rw [not_not] at hset
      exact ⟨rfl, rfl, by simp [hset]⟩
  | doubleBuffering =>
    rw [hclass] at h
    cases h
    exact hadd
  | sharedData =>
    rw [hclass] at h
    cases h
    exact hadd

/-- What a successful attachment of an output changes. -/
theorem connectOutput_ok {protocol protocol' : CommunicationProtocol} {port : Endpoint}
    (h : protocol.connectOutput port = .ok protocol') :
    port.protocolType = protocol.protocolType ∧ protocol'.protocolType = protocol.protocolType ∧
      protocol'.inputs = protocol.inputs ∧
      ∀ e, e ∈ protocol'.outputs ↔ e ∈ protocol.outputs ∨ e = port := by
  unfold connectOutput at h
  by_cases htype : port.protocolType ≠ protocol.protocolType
  · rw [if_pos htype] at h
    cases h
  rw [if_neg htype] at h
  by_cases hset : protocol.outputs ≠ []
  · rw [if_pos hset] at h
    cases h
  · rw [if_neg hset] at h
    cases h
    rw [not_not] at hset
    exact ⟨not_not.mp htype, rfl, rfl, by simp [hset]⟩

end CommunicationProtocol

/-- What has been registered: the classes of the protocol types, and the parameter types
of which objects can be created. -/
structure CommunicationProtocolFactory where
  creatorTable : BitVec 64 → Option ProtocolClass
  parameterTypes : BitVec 64 → Bool

namespace CommunicationProtocolFactory

/-- A new instance.  Message queues hold no parameter object initially. -/
def createProtocol (factory : CommunicationProtocolFactory) (protocolType parameterType : BitVec 64)
    (config : ParameterConfig) : Except Exception CommunicationProtocol :=
  match factory.creatorTable protocolType with
  | none => .error (.logicError
      "CommunicationProtocolFactory: The requested protocol type has not been registered.")
  | some protocolClass =>
    if protocolClass ≠ .messageQueue ∧ factory.parameterTypes parameterType = false then
      .error (.invalidArgument "ParameterFactory: No creator function for requested parameter type ")
    else .ok ⟨protocolClass, protocolType, parameterType, config, [], []⟩

theorem createProtocol_ok {factory : CommunicationProtocolFactory}
    {protocolType parameterType : BitVec 64} {config : ParameterConfig}
    {protocol : CommunicationProtocol}
    (h : factory.createProtocol protocolType parameterType config = .ok protocol) :
    protocol.inputs = [] ∧ protocol.outputs = [] := by
  unfold createProtocol at h
  rcases hclass : factory.creatorTable protocolType with _ | protocolClass
  · rw [hclass] at h
    cases h
  · rw [hclass] at h
    dsimp only at h
    split at h
    · cases h
    · cases h
      exact ⟨rfl, rfl⟩

end CommunicationProtocolFactory

end Visr
