import Visr.Libpml.CommunicationProtocol
import Visr.Librrl.ParameterConnectionGraph

/-!
# Parameter infrastructure

The protocol instances of a flow: one for each group of connected parameter ports, to
which the protocol outputs of its senders and the protocol inputs of its receivers are
attached.  Ports of the flow itself are represented by endpoints that the runtime creates.

## Main results

* `assignProtocol_spec` — the protocol of one component.
* `initialiseParameterInfrastructure_spec` — protocol instances follow connectivity.
-/

namespace Visr

open ParameterConnectionGraph (PortConnected)

/-- What `initialiseParameterInfrastructure` builds, together with its result so far. -/
structure ParameterInfrastructure extends CheckResult where
  communicationProtocols : List CommunicationProtocol
  protocolReceiveEndpoints : List (String × Endpoint)
  protocolSendEndpoints : List (String × Endpoint)

namespace ParameterInfrastructure

/-- Nothing has been created yet. -/
def empty : ParameterInfrastructure := ⟨.passed, [], [], []⟩

/-- Reports a problem. -/
def fail (acc : ParameterInfrastructure) (message : String) : ParameterInfrastructure :=
  { acc with toCheckResult := acc.toCheckResult.fail message }

/-- Reports what another check has reported. -/
def append (acc : ParameterInfrastructure) (check : CheckResult) : ParameterInfrastructure :=
  { acc with toCheckResult := acc.toCheckResult.append check }

/-- Insertion of a receive endpoint into the map; an entry that exists is kept. -/
def insertReceiveEndpoint (acc : ParameterInfrastructure) (name : String) (endpoint : Endpoint) :
    ParameterInfrastructure :=
  if name ∈ acc.protocolReceiveEndpoints.map Prod.fst then acc
  else { acc with
    protocolReceiveEndpoints := acc.protocolReceiveEndpoints ++ [(name, endpoint)] }

/-- Insertion of a send endpoint.  Returns the endpoint that is in the map then. -/
def insertSendEndpoint (acc : ParameterInfrastructure) (name : String) (endpoint : Endpoint) :
    ParameterInfrastructure × Endpoint :=
  match acc.protocolSendEndpoints.find? fun entry => entry.1 = name with
  | some entry => (acc, entry.2)
  | none => ({ acc with
      protocolSendEndpoints := acc.protocolSendEndpoints ++ [(name, endpoint)] }, endpoint)

@[simp] theorem fail_result (acc : ParameterInfrastructure) (message : String) :
    (acc.fail message).result = false := rfl

@[simp] theorem append_result (acc : ParameterInfrastructure) (check : CheckResult) :
    (acc.append check).result = (acc.result && check.result) := rfl

end ParameterInfrastructure

/-- The message about a port that could not be attached. -/
def connectionErrorMessage (port : ParameterPort) (e : Exception) : String :=
  "Error connection protocol output to output port \"" ++ fullyQualifiedName port.toPortBase ++
    "\": " ++ e.what ++ ".\n"

/-- The cast to `ParameterOutputBase`. -/
def outputEndpoint (port : ParameterPort) : Except Exception Endpoint :=
  if port.direction = .output then .ok (.ofPort port)
  else .error (.runtimeError "std::bad_cast")

/-- The cast to `ParameterInputBase`. -/
def inputEndpoint (port : ParameterPort) : Except Exception Endpoint :=
  if port.direction = .input then .ok (.ofPort port)
  else .error (.runtimeError "std::bad_cast")

/-- Attaches a sender.  The second component is the protocol, or the exception that ends
the work on this component. -/
def connectSender (s : ParameterInfrastructure × Except Exception CommunicationProtocol)
    (port : ParameterPort) : ParameterInfrastructure × Except Exception CommunicationProtocol :=
  match s with
  | (acc, .error e) => (acc, .error e)
  | (acc, .ok protocolInstance) =>
    if port.parent.isTopLevel then
      -- an external input needs an endpoint that the outside writes to
      let protocolOutput := Endpoint.external port protocolInstance.protocolType
      match protocolInstance.connectOutput protocolOutput with
      | .error e => (acc, .error e)
      | .ok protocolInstance =>
        (acc.insertReceiveEndpoint port.name protocolOutput, .ok protocolInstance)
    else
      match outputEndpoint port >>= protocolInstance.connectOutput with
      | .error e => (acc.fail (connectionErrorMessage port e), .ok protocolInstance)
      | .ok protocolInstance => (acc, .ok protocolInstance)

/-- Attaches a receiver. -/
def connectReceiver (s : ParameterInfrastructure × Except Exception CommunicationProtocol)
    (port : ParameterPort) : ParameterInfrastructure × Except Exception CommunicationProtocol :=
  match s with
  | (acc, .error e) => (acc, .error e)
  | (acc, .ok protocolInstance) =>
    if port.parent.isTopLevel then
      let entry := acc.insertSendEndpoint port.name
        (.external port protocolInstance.protocolType)
      match protocolInstance.connectInput entry.2 with
      | .error e => (entry.1, .error e)
      | .ok protocolInstance => (entry.1, .ok protocolInstance)
    else
      match inputEndpoint port >>= protocolInstance.connectInput with
      | .error e => (acc.fail (connectionErrorMessage port e), .ok protocolInstance)
      | .ok protocolInstance => (acc, .ok protocolInstance)

/-- Checks ports against the reference port. -/
def checkPorts (refPort : ParameterPort) (acc : ParameterInfrastructure)
    (ports : List ParameterPort) : Except Exception ParameterInfrastructure :=
  ports.foldlM (fun acc port => do
    let check ← checkParameterPortCompatibility refPort port
    return acc.append check) acc

/-- A new protocol instance for a port. -/
def createFor (factory : CommunicationProtocolFactory) (port : ParameterPort) :
    Except Exception CommunicationProtocol := do
  let config ← port.config
  factory.createProtocol port.protocolType port.parameterType config

/-- The part of the loop body in the `try` block: creates the protocol of a component and
attaches all ports. -/
def connectProtocol (factory : CommunicationProtocolFactory) (refPort : ParameterPort)
    (connection : ConnectedPorts) (acc : ParameterInfrastructure) : ParameterInfrastructure :=
  let created := createFor factory refPort
  let senders := connection.sendPorts.foldl connectSender (acc, created)
  let s := connection.receivePorts.foldl connectReceiver senders
  match s.2 with
  | .error e => s.1.fail ("AudioSignalFlow: Error while initialising the communication " ++
      "parameter infrastructure: " ++ e.what ++ ".\n")
  | .ok protocolInstance =>
    { s.1 with communicationProtocols := s.1.communicationProtocols ++ [protocolInstance] }

/-- The body of the loop over the connected components. -/
def assignProtocol (factory : CommunicationProtocolFactory) (acc : ParameterInfrastructure)
    (connection : ConnectedPorts) : Except Exception ParameterInfrastructure := do
  let acc := if connection.numSenders < 1 then
    acc.fail "AudioSignalFlow: A parameter connection must have at least one sending port.\n"
    else acc
  let acc := if connection.numReceivers < 1 then
    acc.fail "AudioSignalFlow: A parameter connection must have at least one receiving port.\n"
    else acc
  match connection.sendPorts with
  | [] => return acc
  | refPort :: sendPorts =>
    let acc ← checkPorts refPort acc (sendPorts ++ connection.receivePorts)
    return connectProtocol factory refPort connection acc

/-- The loop body for an atomic flow, whose parameter ports get a protocol each, which also
has an endpoint for the outside. -/
def assignAtomic (factory : CommunicationProtocolFactory) (acc : ParameterInfrastructure)
    (port : ParameterPort) : Except Exception ParameterInfrastructure := do
  let protocolInstance ← createFor factory port
  let endpoint := Endpoint.external port port.protocolType
  if port.direction = .input then
    let protocolInstance ← protocolInstance.connectInput (.ofPort port)
    let protocolInstance ← protocolInstance.connectOutput endpoint
    let acc := acc.insertReceiveEndpoint port.name endpoint
    return { acc with communicationProtocols := acc.communicationProtocols ++ [protocolInstance] }
  else
    let protocolInstance ← protocolInstance.connectOutput (.ofPort port)
    let protocolInstance ← protocolInstance.connectInput endpoint
    let acc := (acc.insertSendEndpoint port.name endpoint).1
    return { acc with communicationProtocols := acc.communicationProtocols ++ [protocolInstance] }

/-- The protocols of a flow, and the final parameter connections, which are the original
ones. -/
def initialiseParameterInfrastructure (factory : CommunicationProtocolFactory)
    (labelling : ComponentLabelling) (flow : Component)
    (originalConnections : ParameterConnectionMap) :
    Except Exception (ParameterInfrastructure × ParameterConnectionMap) := do
  if flow.isComposite then
    let connectionGraph ← ParameterConnectionGraph.create originalConnections
    let acc ← (connectionGraph.connectedPorts labelling).foldlM (assignProtocol factory) .empty
    return (acc, originalConnections)
  else
    let acc ← flow.parameterPorts.foldlM (assignAtomic factory) .empty
    return (acc, [])

/-! ### Flat parameter connections -/

/-- A port that sends: an input of the flow or an output of a contained component. -/
def SendingPort (root : Component) (p : ParameterPort) : Prop :=
  (p.parent.isTopLevel = true ∧ p.direction = .input ∧ p ∈ root.parameterPorts) ∨
    (p.parent.isTopLevel = false ∧ p.direction = .output)

/-- A port that receives: an output of the flow or an input of a contained component. -/
def ReceivingPort (root : Component) (p : ParameterPort) : Prop :=
  (p.parent.isTopLevel = true ∧ p.direction = .output ∧ p ∈ root.parameterPorts) ∨
    (p.parent.isTopLevel = false ∧ p.direction = .input)

/-- The flat parameter connections of a flow.  An atomic flow has none. -/
structure FlatParameterMap (root : Component) where
  connections : ParameterConnectionMap
  sender : ∀ c ∈ connections, SendingPort root c.2
  receiver : ∀ c ∈ connections, ReceivingPort root c.1
  composite : connections ≠ [] → root.isComposite = true

theorem SendingPort.isReceivePort {root : Component} {p : ParameterPort}
    (h : SendingPort root p) : ParameterConnectionGraph.isReceivePort p = false := by
  unfold ParameterConnectionGraph.isReceivePort isToplevelPort
  rcases h with ⟨htop, hdir, -⟩ | ⟨htop, hdir⟩
  · simp [htop, hdir]
  · simp [htop, hdir]

theorem ReceivingPort.isReceivePort {root : Component} {p : ParameterPort}
    (h : ReceivingPort root p) : ParameterConnectionGraph.isReceivePort p = true := by
  unfold ParameterConnectionGraph.isReceivePort isToplevelPort
  rcases h with ⟨htop, hdir, -⟩ | ⟨htop, hdir⟩
  · simp [htop, hdir]
  · simp [htop, hdir]

/-! ### One component -/

/-- The endpoint that stands for a port at a protocol. -/
def CommunicationProtocol.endpointOf (protocol : CommunicationProtocol) (p : ParameterPort) :
    Endpoint :=
  if p.parent.isTopLevel then .external p protocol.protocolType else .ofPort p

theorem endpointOf_inj {protocol : CommunicationProtocol} {p q : ParameterPort}
    (h : protocol.endpointOf p = protocol.endpointOf q) : p = q := by
  unfold CommunicationProtocol.endpointOf at h
  by_cases hp : p.parent.isTopLevel = true
  · by_cases hq : q.parent.isTopLevel = true
    · rw [if_pos hp, if_pos hq] at h
      cases h
      rfl
    · rw [if_pos hp, if_neg hq] at h
      cases h
  · by_cases hq : q.parent.isTopLevel = true
    · rw [if_neg hp, if_pos hq] at h
      cases h
    · rw [if_neg hp, if_neg hq] at h
      cases h
      rfl

theorem endpointOf_congr {protocol protocol' : CommunicationProtocol}
    (h : protocol'.protocolType = protocol.protocolType) (p : ParameterPort) :
    protocol'.endpointOf p = protocol.endpointOf p := by
  unfold CommunicationProtocol.endpointOf
  rw [h]

/-- The protocol has the senders of a component as its outputs and the receivers as its
inputs. -/
structure Assigned (connection : ConnectedPorts) (protocol : CommunicationProtocol) : Prop where
  outputs : ∀ e, e ∈ protocol.outputs ↔ ∃ p ∈ connection.sendPorts, e = protocol.endpointOf p
  inputs : ∀ e, e ∈ protocol.inputs ↔ ∃ p ∈ connection.receivePorts, e = protocol.endpointOf p

/-- The endpoints of the external receivers are all that is changed. -/
theorem insertReceiveEndpoint_spec (acc : ParameterInfrastructure) (name : String)
    (endpoint : Endpoint) :
    (acc.insertReceiveEndpoint name endpoint).result = acc.result ∧
      (acc.insertReceiveEndpoint name endpoint).communicationProtocols =
        acc.communicationProtocols ∧
      (acc.insertReceiveEndpoint name endpoint).protocolSendEndpoints =
        acc.protocolSendEndpoints := by
  unfold ParameterInfrastructure.insertReceiveEndpoint
  split
  · exact ⟨rfl, rfl, rfl⟩
  · exact ⟨rfl, rfl, rfl⟩

/-- A successful attachment of a sender. -/
theorem connectSender_ok {s : ParameterInfrastructure × Except Exception CommunicationProtocol}
    {port : ParameterPort} {protocol' : CommunicationProtocol}
    (hok : (connectSender s port).2 = .ok protocol')
    (hresult : (connectSender s port).1.result = true) :
    ∃ protocol, s.2 = .ok protocol ∧ s.1.result = true ∧
      protocol'.protocolType = protocol.protocolType ∧ protocol'.inputs = protocol.inputs ∧
      (∀ e, e ∈ protocol'.outputs ↔ e ∈ protocol.outputs ∨ e = protocol.endpointOf port) ∧
      (connectSender s port).1.communicationProtocols = s.1.communicationProtocols ∧
      (connectSender s port).1.protocolSendEndpoints = s.1.protocolSendEndpoints := by
  obtain ⟨acc, r⟩ := s
  cases r with
  | error e => cases hok
  | ok protocol =>
    refine ⟨protocol, rfl, ?_⟩
    unfold connectSender at hok hresult ⊢
    dsimp only at hok hresult ⊢
    by_cases htop : port.parent.isTopLevel = true
    · rw [if_pos htop] at hok hresult ⊢
      -- an exception here is not caught, so there would be no protocol
      rcases hconn : protocol.connectOutput (.external port protocol.protocolType) with e | p'
      · rw [hconn] at hok
        cases hok
      · rw [hconn] at hok hresult
        cases hok
        obtain ⟨-, htype, hin, hout⟩ := CommunicationProtocol.connectOutput_ok hconn
        have hendpoint : protocol.endpointOf port = .external port protocol.protocolType :=
          if_pos htop
        rw [hendpoint]
        dsimp only at hresult ⊢
        obtain ⟨h₁, h₂, h₃⟩ := insertReceiveEndpoint_spec acc port.name
          (.external port protocol.protocolType)
        exact ⟨h₁ ▸ hresult, htype, hin, hout, h₂, h₃⟩
    · rw [if_neg htop] at hok hresult ⊢
      rcases hconn : outputEndpoint port >>= protocol.connectOutput with e | p'
      · -- a failure that is caught here is reported
        rw [hconn] at hresult
        cases hresult
      · rw [hconn] at hok hresult
        cases hok
        have hendpoint : protocol.endpointOf port = .ofPort port := if_neg htop
        unfold outputEndpoint at hconn
        by_cases hdir : port.direction = .output
        · rw [if_pos hdir] at hconn
          obtain ⟨-, htype, hin, hout⟩ := CommunicationProtocol.connectOutput_ok hconn
          rw [hendpoint]
          exact ⟨hresult, htype, hin, hout, rfl, rfl⟩
        · rw [if_neg hdir] at hconn
          cases hconn

/-- All senders of a component. -/
theorem foldl_connectSender_ok {ports : List ParameterPort}
    {s : ParameterInfrastructure × Except Exception CommunicationProtocol}
    {protocol' : CommunicationProtocol} (hok : (ports.foldl connectSender s).2 = .ok protocol')
    (hresult : (ports.foldl connectSender s).1.result = true) :
    ∃ protocol, s.2 = .ok protocol ∧ s.1.result = true ∧
      protocol'.protocolType = protocol.protocolType ∧ protocol'.inputs = protocol.inputs ∧
      (∀ e, e ∈ protocol'.outputs ↔
        e ∈ protocol.outputs ∨ ∃ p ∈ ports, e = protocol.endpointOf p) ∧
      (ports.foldl connectSender s).1.communicationProtocols = s.1.communicationProtocols ∧
      (ports.foldl connectSender s).1.protocolSendEndpoints = s.1.protocolSendEndpoints := by
  induction ports generalizing s with
  | nil => exact ⟨protocol', hok, hresult, rfl, rfl, by simp, rfl, rfl⟩
  | cons port ports ih =>
    obtain ⟨p₁, hok₁, hresult₁, htype₁, hin₁, hout₁, hprot₁, hsend₁⟩ := ih hok hresult
    obtain ⟨p₀, hok₀, hresult₀, htype₀, hin₀, hout₀, hprot₀, hsend₀⟩ :=
      connectSender_ok hok₁ hresult₁
    refine ⟨p₀, hok₀, hresult₀, htype₁.trans htype₀, hin₁.trans hin₀, ?_, hprot₁.trans hprot₀,
      hsend₁.trans hsend₀⟩
    intro e
    rw [hout₁, hout₀, or_assoc]
    simp only [endpointOf_congr htype₀, List.exists_mem_cons_iff]

/-- The send endpoints belong to ports of the flow, under their names. -/
def KnownEndpoints (root : Component) (endpoints : List (String × Endpoint)) : Prop :=
  ∀ entry ∈ endpoints, ∃ p t, entry = (p.name, .external p t) ∧ p ∈ root.parameterPorts

/-- Since the names of the ports differ, an endpoint that is found belongs to the port
itself. -/
theorem insertSendEndpoint_spec {root : Component}
    (hnames : (root.parameterPorts.map (·.name)).Nodup) {acc : ParameterInfrastructure}
    (hknown : KnownEndpoints root acc.protocolSendEndpoints) {port : ParameterPort}
    (hport : port ∈ root.parameterPorts) (t : BitVec 64) :
    let entry := acc.insertSendEndpoint port.name (.external port t)
    (∃ t', entry.2 = .external port t') ∧ entry.1.result = acc.result ∧
      entry.1.communicationProtocols = acc.communicationProtocols ∧
      KnownEndpoints root entry.1.protocolSendEndpoints := by
  unfold ParameterInfrastructure.insertSendEndpoint
  rcases hfind : acc.protocolSendEndpoints.find? (fun entry => entry.1 = port.name) with _ | entry
  · simp only [hfind]
    refine ⟨⟨t, rfl⟩, trivial, trivial, ?_⟩
    intro entry hentry
    rcases List.mem_append.mp hentry with hentry | hentry
    · exact hknown entry hentry
    · rw [List.mem_singleton.mp hentry]
      exact ⟨port, t, rfl, hport⟩
  · obtain ⟨p, t', rfl, hp⟩ := hknown entry (List.mem_of_find?_eq_some hfind)
    have hname : p.name = port.name := by simpa using List.find?_some hfind
    have hpp : p = port := List.inj_on_of_nodup_map hnames hp hport hname
    simp only [hfind]
    refine ⟨⟨t', ?_⟩, trivial, trivial, hknown⟩
    rw [hpp]

/-- Attaching a receiver keeps the endpoints known. -/
theorem connectReceiver_known {root : Component}
    (hnames : (root.parameterPorts.map (·.name)).Nodup)
    {s : ParameterInfrastructure × Except Exception CommunicationProtocol} {port : ParameterPort}
    (hknown : KnownEndpoints root s.1.protocolSendEndpoints) (hport : ReceivingPort root port) :
    KnownEndpoints root (connectReceiver s port).1.protocolSendEndpoints := by
  obtain ⟨acc, r⟩ := s
  cases r with
  | error e => exact hknown
  | ok protocol =>
    unfold connectReceiver
    dsimp only
    by_cases htop : port.parent.isTopLevel = true
    · rw [if_pos htop]
      have hmem : port ∈ root.parameterPorts := by
        rcases hport with ⟨-, -, hmem⟩ | ⟨hnested, -⟩
        · exact hmem
        · rw [htop] at hnested
          cases hnested
      obtain ⟨-, -, -, hknown'⟩ :=
        insertSendEndpoint_spec hnames hknown hmem protocol.protocolType
      rcases protocol.connectInput (acc.insertSendEndpoint port.name
        (.external port protocol.protocolType)).2 with e | p'
      · exact hknown'
      · exact hknown'
    · rw [if_neg htop]
      rcases inputEndpoint port >>= protocol.connectInput with e | p'
      · exact hknown
      · exact hknown

/-- A successful attachment of a receiver. -/
theorem connectReceiver_ok {root : Component}
    (hnames : (root.parameterPorts.map (·.name)).Nodup)
    {s : ParameterInfrastructure × Except Exception CommunicationProtocol} {port : ParameterPort}
    (hknown : KnownEndpoints root s.1.protocolSendEndpoints) (hport : ReceivingPort root port)
    {protocol' : CommunicationProtocol} (hok : (connectReceiver s port).2 = .ok protocol')
    (hresult : (connectReceiver s port).1.result = true) :
    ∃ protocol, s.2 = .ok protocol ∧ s.1.result = true ∧
      protocol'.protocolType = protocol.protocolType ∧ protocol'.outputs = protocol.outputs ∧
      (∀ e, e ∈ protocol'.inputs ↔ e ∈ protocol.inputs ∨ e = protocol.endpointOf port) ∧
      (connectReceiver s port).1.communicationProtocols = s.1.communicationProtocols := by
  obtain ⟨acc, r⟩ := s
  cases r with
  | error e => cases hok
  | ok protocol =>
    refine ⟨protocol, rfl, ?_⟩
    unfold connectReceiver at hok hresult ⊢
    dsimp only at hok hresult ⊢
    by_cases htop : port.parent.isTopLevel = true
    · rw [if_pos htop] at hok hresult ⊢
      have hmem : port ∈ root.parameterPorts := by
        rcases hport with ⟨-, -, hmem⟩ | ⟨hnested, -⟩
        · exact hmem
        · rw [htop] at hnested
          cases hnested
      obtain ⟨⟨t, hentry⟩, hres, hprot, -⟩ :=
        insertSendEndpoint_spec hnames hknown hmem protocol.protocolType
      rcases hconn : protocol.connectInput (acc.insertSendEndpoint port.name
        (.external port protocol.protocolType)).2 with e | p'
      · rw [hconn] at hok
        cases hok
      · rw [hconn] at hok hresult
        cases hok
        obtain ⟨hsame, htype, hout, hin⟩ := CommunicationProtocol.connectInput_ok hconn
        -- an endpoint that was there before has the type of the protocol, or it would not be
        -- connected
        have hendpoint : (acc.insertSendEndpoint port.name
            (.external port protocol.protocolType)).2 = protocol.endpointOf port := by
          rw [hentry] at hsame ⊢
          have ht : t = protocol.protocolType := hsame
          rw [ht]
          exact (if_pos htop).symm
        rw [hendpoint] at hin
        exact ⟨hres ▸ hresult, htype, hout, hin, hprot⟩
    · rw [if_neg htop] at hok hresult ⊢
      rcases hconn : inputEndpoint port >>= protocol.connectInput with e | p'
      · rw [hconn] at hresult
        cases hresult
      · rw [hconn] at hok hresult
        cases hok
        have hendpoint : protocol.endpointOf port = .ofPort port := if_neg htop
        unfold inputEndpoint at hconn
        by_cases hdir : port.direction = .input
        · rw [if_pos hdir] at hconn
          obtain ⟨-, htype, hout, hin⟩ := CommunicationProtocol.connectInput_ok hconn
          rw [hendpoint]
          exact ⟨hresult, htype, hout, hin, rfl⟩
        · rw [if_neg hdir] at hconn
          cases hconn

/-- All receivers of a component. -/
theorem foldl_connectReceiver_ok {root : Component}
    (hnames : (root.parameterPorts.map (·.name)).Nodup) {ports : List ParameterPort}
    (hports : ∀ p ∈ ports, ReceivingPort root p)
    {s : ParameterInfrastructure × Except Exception CommunicationProtocol}
    (hknown : KnownEndpoints root s.1.protocolSendEndpoints) :
    KnownEndpoints root (ports.foldl connectReceiver s).1.protocolSendEndpoints ∧
    ∀ protocol', (ports.foldl connectReceiver s).2 = .ok protocol' →
      (ports.foldl connectReceiver s).1.result = true →
      ∃ protocol, s.2 = .ok protocol ∧ s.1.result = true ∧
        protocol'.protocolType = protocol.protocolType ∧ protocol'.outputs = protocol.outputs ∧
        (∀ e, e ∈ protocol'.inputs ↔
          e ∈ protocol.inputs ∨ ∃ p ∈ ports, e = protocol.endpointOf p) ∧
        (ports.foldl connectReceiver s).1.communicationProtocols = s.1.communicationProtocols := by
  induction ports generalizing s with
  | nil => exact ⟨hknown, fun protocol' hok hresult =>
      ⟨protocol', hok, hresult, rfl, rfl, by simp, rfl⟩⟩
  | cons port ports ih =>
    obtain ⟨hport, hports⟩ := List.forall_mem_cons.mp hports
    obtain ⟨hknown', hrest⟩ := ih hports (connectReceiver_known hnames hknown hport)
    refine ⟨hknown', fun protocol' hok hresult => ?_⟩
    obtain ⟨p₁, hok₁, hresult₁, htype₁, hout₁, hin₁, hprot₁⟩ := hrest protocol' hok hresult
    -- what succeeds in the end has succeeded at each port
    obtain ⟨p₀, hok₀, hresult₀, htype₀, hout₀, hin₀, hprot₀⟩ :=
      connectReceiver_ok hnames hknown hport hok₁ hresult₁
    refine ⟨p₀, hok₀, hresult₀, htype₁.trans htype₀, hout₁.trans hout₀, ?_, hprot₁.trans hprot₀⟩
    intro e
    rw [hin₁, hin₀, or_assoc]
    simp only [endpointOf_congr htype₀, List.exists_mem_cons_iff]

theorem createFor_ok {factory : CommunicationProtocolFactory} {port : ParameterPort}
    {protocol : CommunicationProtocol} (h : createFor factory port = .ok protocol) :
    protocol.inputs = [] ∧ protocol.outputs = [] := by
  unfold createFor at h
  rcases hconfig : port.config with e | config
  · rw [hconfig] at h
    cases h
  · rw [hconfig] at h
    exact CommunicationProtocolFactory.createProtocol_ok h

/-- Senders leave the send endpoints alone. -/
theorem foldl_connectSender_endpoints (ports : List ParameterPort)
    (s : ParameterInfrastructure × Except Exception CommunicationProtocol) :
    (ports.foldl connectSender s).1.protocolSendEndpoints = s.1.protocolSendEndpoints := by
  induction ports generalizing s with
  | nil => rfl
  | cons port ports ih =>
    rw [List.foldl_cons, ih]
    obtain ⟨acc, r⟩ := s
    cases r with
    | error e => rfl
    | ok protocol =>
      unfold connectSender
      dsimp only
      split
      · split
        · rfl
        · exact (insertReceiveEndpoint_spec _ _ _).2.2
      · split <;> rfl

/-- **The protocol of one component.**  If nothing has gone wrong afterwards, one protocol
has been added, which is assigned to the component. -/
theorem connectProtocol_spec {root : Component}
    (hnames : (root.parameterPorts.map (·.name)).Nodup) (factory : CommunicationProtocolFactory)
    (refPort : ParameterPort) {connection : ConnectedPorts}
    (hports : ∀ p ∈ connection.receivePorts, ReceivingPort root p) {acc : ParameterInfrastructure}
    (hknown : KnownEndpoints root acc.protocolSendEndpoints) :
    KnownEndpoints root (connectProtocol factory refPort connection acc).protocolSendEndpoints ∧
    ((connectProtocol factory refPort connection acc).result = true →
      acc.result = true ∧ ∃ protocol,
        (connectProtocol factory refPort connection acc).communicationProtocols =
          acc.communicationProtocols ++ [protocol] ∧ Assigned connection protocol) := by
  have hsend : KnownEndpoints root (connection.sendPorts.foldl connectSender
      (acc, createFor factory refPort)).1.protocolSendEndpoints := by
    rw [foldl_connectSender_endpoints]
    exact hknown
  obtain ⟨hknown', hreceive⟩ := foldl_connectReceiver_ok hnames hports hsend
  unfold connectProtocol
  dsimp only
  generalize hs : connection.receivePorts.foldl connectReceiver
    (connection.sendPorts.foldl connectSender (acc, createFor factory refPort)) = s at *
  obtain ⟨acc', r⟩ := s
  cases r with
  | error e => exact ⟨hknown', fun hresult => absurd hresult Bool.false_ne_true⟩
  | ok protocol =>
    refine ⟨hknown', fun hresult => ?_⟩
    obtain ⟨p₁, hok₁, hresult₁, htype₁, hout₁, hin₁, hprot₁⟩ := hreceive protocol rfl hresult
    -- the receivers come after the senders, so their success implies that of the senders
    obtain ⟨p₀, hok₀, hresult₀, htype₀, hin₀, hout₀, hprot₀, -⟩ :=
      foldl_connectSender_ok hok₁ hresult₁
    obtain ⟨hinNil, houtNil⟩ := createFor_ok hok₀
    refine ⟨hresult₀, protocol, ?_, ?_, ?_⟩
    · dsimp only at hprot₁ ⊢
      rw [hprot₁, hprot₀]
    · intro e
      rw [hout₁, hout₀, houtNil]
      simp only [List.not_mem_nil, false_or, endpointOf_congr (htype₁.trans htype₀)]
    · intro e
      rw [hin₁, hin₀, hinNil]
      simp only [List.not_mem_nil, false_or, endpointOf_congr htype₁]

theorem checkPorts_ok {refPort : ParameterPort} {ports : List ParameterPort}
    {acc acc' : ParameterInfrastructure} (h : checkPorts refPort acc ports = .ok acc') :
    (acc'.result = true → acc.result = true) ∧
      acc'.communicationProtocols = acc.communicationProtocols ∧
      acc'.protocolSendEndpoints = acc.protocolSendEndpoints := by
  unfold checkPorts at h
  induction ports generalizing acc with
  | nil =>
    cases h
    exact ⟨id, rfl, rfl⟩
  | cons port ports ih =>
    rw [List.foldlM_cons] at h
    rcases hcheck : checkParameterPortCompatibility refPort port with e | check
    · rw [hcheck] at h
      cases h
    · rw [hcheck] at h
      obtain ⟨hresult, hprot, hsend⟩ := ih h
      refine ⟨fun hres => ?_, hprot, hsend⟩
      have happend := hresult hres
      rw [ParameterInfrastructure.append_result, Bool.and_eq_true] at happend
      exact happend.1

/-- One round of the loop over the components. -/
theorem assignProtocol_spec {root : Component}
    (hnames : (root.parameterPorts.map (·.name)).Nodup) {factory : CommunicationProtocolFactory}
    {connection : ConnectedPorts} (hports : ∀ p ∈ connection.receivePorts, ReceivingPort root p)
    {acc acc' : ParameterInfrastructure}
    (hknown : KnownEndpoints root acc.protocolSendEndpoints)
    (hok : assignProtocol factory acc connection = .ok acc') :
    KnownEndpoints root acc'.protocolSendEndpoints ∧
    (acc'.result = true → acc.result = true ∧ ∃ protocol,
      acc'.communicationProtocols = acc.communicationProtocols ++ [protocol] ∧
      Assigned connection protocol) := by
  unfold assignProtocol at hok
  dsimp only at hok
  rcases hsenders : connection.sendPorts with _ | ⟨refPort, sendPorts⟩
  · -- a component without senders is reported
    have hfew : connection.numSenders < 1 := by
      rw [ConnectedPorts.numSenders, hsenders]
      exact Nat.one_pos
    have hfew' : connection.numReceivers < 1 := hfew
    rw [if_pos hfew, if_pos hfew', hsenders] at hok
    cases hok
    exact ⟨hknown, fun hresult => absurd hresult Bool.false_ne_true⟩
  · have hmany : ¬ connection.numSenders < 1 := by
      rw [ConnectedPorts.numSenders, hsenders, List.length_cons]
      omega
    have hmany' : ¬ connection.numReceivers < 1 := hmany
    rw [if_neg hmany, if_neg hmany', hsenders] at hok
    dsimp only at hok
    rcases hcheck : checkPorts refPort acc (sendPorts ++ connection.receivePorts) with e | acc₁
    · rw [hcheck] at hok
      cases hok
    · rw [hcheck] at hok
      cases hok
      obtain ⟨hres, hprot, hsend⟩ := checkPorts_ok hcheck
      rw [← hsend] at hknown
      obtain ⟨hknown₁, hsuccess⟩ := connectProtocol_spec hnames factory refPort hports hknown
      refine ⟨hknown₁, fun hresult => ?_⟩
      obtain ⟨hres₁, protocol, hprot₁, hassigned⟩ := hsuccess hresult
      rw [hprot] at hprot₁
      exact ⟨hres hres₁, protocol, hprot₁, hassigned⟩

/-- The loop over the components. -/
theorem foldlM_assignProtocol {root : Component}
    (hnames : (root.parameterPorts.map (·.name)).Nodup) {factory : CommunicationProtocolFactory}
    {connections : List ConnectedPorts}
    (hports : ∀ c ∈ connections, ∀ p ∈ c.receivePorts, ReceivingPort root p)
    {acc acc' : ParameterInfrastructure}
    (hknown : KnownEndpoints root acc.protocolSendEndpoints)
    (hok : connections.foldlM (assignProtocol factory) acc = .ok acc')
    (hresult : acc'.result = true) :
    acc.result = true ∧ ∃ protocols,
      acc'.communicationProtocols = acc.communicationProtocols ++ protocols ∧
      List.Forall₂ Assigned connections protocols := by
  induction connections generalizing acc with
  | nil =>
    cases hok
    exact ⟨hresult, [], (List.append_nil _).symm, List.Forall₂.nil⟩
  | cons c connections ih =>
    obtain ⟨hc, hports⟩ := List.forall_mem_cons.mp hports
    rw [List.foldlM_cons] at hok
    rcases hstep : assignProtocol factory acc c with e | acc₁
    · rw [hstep] at hok
      cases hok
    · rw [hstep] at hok
      obtain ⟨hknown₁, hsuccess⟩ := assignProtocol_spec hnames hc hknown hstep
      -- a failure is remembered, so success at the end is success of each step
      obtain ⟨hres₁, protocols, hprot, hassigned⟩ := ih hports hknown₁ hok
      obtain ⟨hres, protocol, hprot₁, hassigned₁⟩ := hsuccess hres₁
      refine ⟨hres, protocol :: protocols, ?_, List.Forall₂.cons hassigned₁ hassigned⟩
      rw [hprot, hprot₁, List.append_assoc]
      rfl

/-! ### All components -/

/-- The port occurs in the connection map. -/
def Occurs (connections : ParameterConnectionMap) (p : ParameterPort) : Prop :=
  ∃ c ∈ connections, p = c.1 ∨ p = c.2

/-- The port sends in the connection map. -/
def OccursAsSender (connections : ParameterConnectionMap) (p : ParameterPort) : Prop :=
  ∃ r, (r, p) ∈ connections

/-- The port receives in the connection map. -/
def OccursAsReceiver (connections : ParameterConnectionMap) (p : ParameterPort) : Prop :=
  ∃ s, (p, s) ∈ connections

/-- The classification of the ports follows the connection map. -/
theorem FlatParameterMap.classified {root : Component} (maps : FlatParameterMap root)
    {p : ParameterPort} (hp : Occurs maps.connections p) :
    (OccursAsSender maps.connections p ↔ ParameterConnectionGraph.isReceivePort p = false) ∧
    (OccursAsReceiver maps.connections p ↔ ParameterConnectionGraph.isReceivePort p = true) := by
  have hsend : ∀ q, OccursAsSender maps.connections q →
      ParameterConnectionGraph.isReceivePort q = false := by
    rintro q ⟨r, hr⟩
    exact (maps.sender _ hr).isReceivePort
  have hreceive : ∀ q, OccursAsReceiver maps.connections q →
      ParameterConnectionGraph.isReceivePort q = true := by
    rintro q ⟨s, hs⟩
    exact (maps.receiver _ hs).isReceivePort
  obtain ⟨⟨r, s⟩, hc, hp⟩ := hp
  cases hp with
  | inl hp =>
    have hoccurs : OccursAsReceiver maps.connections p := ⟨s, hp ▸ hc⟩
    have htrue := hreceive p hoccurs
    refine ⟨⟨hsend p, fun h => ?_⟩, ⟨hreceive p, fun _ => hoccurs⟩⟩
    rw [htrue] at h
    cases h
  | inr hp =>
    have hoccurs : OccursAsSender maps.connections p := ⟨r, hp ▸ hc⟩
    have hfalse := hsend p hoccurs
    refine ⟨⟨hsend p, fun _ => hoccurs⟩, ⟨hreceive p, fun h => ?_⟩⟩
    rw [hfalse] at h
    cases h

/-- **Protocol instances follow connectivity.**  Each connected component has one protocol
instance of its own, with the senders of the component as its outputs and the receivers as
its inputs. -/
theorem initialiseParameterInfrastructure_spec (factory : CommunicationProtocolFactory)
    (labelling : ComponentLabelling) (flow : Flow) (maps : FlatParameterMap flow.root)
    {infrastructure : ParameterInfrastructure} {finalConnections : ParameterConnectionMap}
    (hok : initialiseParameterInfrastructure factory labelling flow.root maps.connections =
      .ok (infrastructure, finalConnections))
    (hresult : infrastructure.result = true) :
    ∃ instanceOf : ParameterPort → ℕ,
      (∀ p, Occurs maps.connections p →
        instanceOf p < infrastructure.communicationProtocols.length) ∧
      (∀ p q, Occurs maps.connections p → Occurs maps.connections q →
        (instanceOf p = instanceOf q ↔ PortConnected maps.connections p q)) ∧
      (∀ i protocol, infrastructure.communicationProtocols[i]? = some protocol →
        ∀ p, Occurs maps.connections p →
          (protocol.endpointOf p ∈ protocol.outputs ↔
            OccursAsSender maps.connections p ∧ instanceOf p = i) ∧
          (protocol.endpointOf p ∈ protocol.inputs ↔
            OccursAsReceiver maps.connections p ∧ instanceOf p = i)) ∧
      (flow.root.isComposite = true →
        ∀ i protocol, infrastructure.communicationProtocols[i]? = some protocol →
          (∃ p, Occurs maps.connections p ∧ instanceOf p = i) ∧
          ∀ e, e ∈ protocol.outputs ∨ e ∈ protocol.inputs →
            ∃ p, Occurs maps.connections p ∧ e = protocol.endpointOf p) := by
  unfold initialiseParameterInfrastructure at hok
  by_cases hcomposite : flow.root.isComposite = true
  · rw [if_pos hcomposite] at hok
    rcases hcreate : ParameterConnectionGraph.create maps.connections with e | g
    · rw [hcreate] at hok
      cases hok
    rw [hcreate] at hok
    rcases hfold : (g.connectedPorts labelling).foldlM (assignProtocol factory) .empty with
      e | acc
    · simp only [bind, Except.bind, hfold] at hok
      cases hok
    simp only [bind, Except.bind, hfold] at hok
    cases hok
    have hgraph := ParameterConnectionGraph.create_spec hcreate
    have hclass : ∀ p, p ∈ g.ports → Occurs maps.connections p :=
      fun p hp => (hgraph.mem_ports p).mp hp
    -- the receive ports of the components are receiving ports of the flow
    have hports : ∀ c ∈ g.connectedPorts labelling, ∀ p ∈ c.receivePorts,
        ReceivingPort flow.root p := by
      intro c hc p hp
      obtain ⟨i, hi⟩ := List.getElem?_of_mem hc
      obtain ⟨⟨hmem, -⟩, hreceive⟩ :=
        ((ParameterConnectionGraph.getElem?_connectedPorts hi).2 p).mp hp
      obtain ⟨s, hs⟩ := (maps.classified (hclass p hmem)).2.mpr hreceive
      exact maps.receiver _ hs
    have hnames := flow.wellFormed.parameterNames _ flow.root.mem_preorder_self
    obtain ⟨-, protocols, hprot, hassigned⟩ := foldlM_assignProtocol hnames hports
      (fun entry hentry => absurd hentry List.not_mem_nil) hfold hresult
    have hprot' : infrastructure.communicationProtocols = protocols := hprot
    rw [hprot']
    have hlength : protocols.length = labelling.count g.ports.length g.edges := by
      rw [← hassigned.length_eq, ParameterConnectionGraph.length_connectedPorts]
    have hget : ∀ (i : ℕ) protocol, protocols[i]? = some protocol →
        ∃ c, (g.connectedPorts labelling)[i]? = some c ∧ Assigned c protocol := by
      intro i protocol hi
      obtain ⟨hlt, hi'⟩ := List.getElem?_eq_some_iff.mp hi
      have hlt' : i < (g.connectedPorts labelling).length := by
        rw [hassigned.length_eq]
        exact hlt
      refine ⟨(g.connectedPorts labelling)[i], List.getElem?_eq_getElem hlt', ?_⟩
      rw [← hi']
      exact List.Forall₂.get hassigned hlt' hlt
    refine ⟨g.componentOf labelling, ?_, ?_, ?_, ?_⟩
    · intro p hp
      rw [hlength]
      exact labelling.label_lt (List.idxOf_lt_length_of_mem ((hgraph.mem_ports p).mpr hp))
    · intro p q hp hq
      exact hgraph.componentOf_eq_iff labelling ((hgraph.mem_ports p).mpr hp)
        ((hgraph.mem_ports q).mpr hq)
    · intro i protocol hi p hp
      obtain ⟨c, hc, hassign⟩ := hget i protocol hi
      obtain ⟨hsend, hreceive⟩ := ParameterConnectionGraph.getElem?_connectedPorts hc
      obtain ⟨hsender, hreceiver⟩ := maps.classified hp
      have hmem := (hgraph.mem_ports p).mpr hp
      constructor
      · rw [hassign.outputs, hsender]
        constructor
        · rintro ⟨q, hq, heq⟩
          rw [endpointOf_inj heq]
          obtain ⟨⟨-, hcomp⟩, hclassq⟩ := (hsend q).mp hq
          exact ⟨hclassq, hcomp⟩
        · rintro ⟨hclassp, hcomp⟩
          exact ⟨p, (hsend p).mpr ⟨⟨hmem, hcomp⟩, hclassp⟩, rfl⟩
      · rw [hassign.inputs, hreceiver]
        constructor
        · rintro ⟨q, hq, heq⟩
          rw [endpointOf_inj heq]
          obtain ⟨⟨-, hcomp⟩, hclassq⟩ := (hreceive q).mp hq
          exact ⟨hclassq, hcomp⟩
        · rintro ⟨hclassp, hcomp⟩
          exact ⟨p, (hreceive p).mpr ⟨⟨hmem, hcomp⟩, hclassp⟩, rfl⟩
    · intro _ i protocol hi
      obtain ⟨c, hc, hassign⟩ := hget i protocol hi
      obtain ⟨hsend, hreceive⟩ := ParameterConnectionGraph.getElem?_connectedPorts hc
      constructor
      · have hlt : i < labelling.count g.ports.length g.edges := by
          rw [← hlength]
          exact (List.getElem?_eq_some_iff.mp hi).1
        obtain ⟨v, hv, hlabel⟩ := labelling.exists_label_eq hlt
        refine ⟨g.ports[v], hclass _ (List.getElem_mem hv), ?_⟩
        rw [ParameterConnectionGraph.componentOf, hgraph.nodup.idxOf_getElem]
        exact hlabel
      · rintro e (he | he)
        · obtain ⟨p, hp, rfl⟩ := (hassign.outputs e).mp he
          exact ⟨p, hclass p ((hsend p).mp hp).1.1, rfl⟩
        · obtain ⟨p, hp, rfl⟩ := (hassign.inputs e).mp he
          exact ⟨p, hclass p ((hreceive p).mp hp).1.1, rfl⟩
  · -- an atomic flow has no connections
    have hnil : maps.connections = [] := by
      by_contra hne
      exact hcomposite (maps.composite hne)
    have hnone : ∀ p, ¬ Occurs maps.connections p := by
      rintro p ⟨c, hc, -⟩
      rw [hnil] at hc
      cases hc
    exact ⟨fun _ => 0, fun p hp => absurd hp (hnone p), fun p q hp => absurd hp (hnone p),
      fun i protocol _ p hp => absurd hp (hnone p), fun h => absurd h hcomposite⟩

private def pairSender : ParameterPort :=
  ⟨⟨1, "out", ⟨11, "first", "flow:first", false, false⟩, .output⟩, 1, 1, some .empty⟩

private def pairReceiver : ParameterPort :=
  ⟨⟨2, "in", ⟨12, "second", "flow:second", false, false⟩, .input⟩, 1, 1, some .empty⟩

/-- A component that sends to another one. -/
def pairFlow : Flow where
  root := .composite ⟨0, "flow", "flow", true, true⟩ [] []
    [.atomic pairSender.parent [] [pairSender], .atomic pairReceiver.parent [] [pairReceiver]]
    [] [⟨pairSender, pairReceiver⟩]
  wellFormed := by constructor <;> decide

/-- Its flat connections. -/
def pairMap : FlatParameterMap pairFlow.root where
  connections := [(pairReceiver, pairSender)]
  sender c hc := by
    rw [List.mem_singleton.mp hc]
    exact Or.inr ⟨rfl, rfl⟩
  receiver c hc := by
    rw [List.mem_singleton.mp hc]
    exact Or.inr ⟨rfl, rfl⟩
  composite _ := rfl

/-- A factory that has registered the shared data protocol. -/
def sharedDataFactory : CommunicationProtocolFactory where
  creatorTable t := if t = 1 then some .sharedData else none
  parameterTypes t := t = 1

private def pairProtocol : CommunicationProtocol :=
  ⟨.sharedData, 1, 1, .empty, [.ofPort pairReceiver], [.ofPort pairSender]⟩

theorem initialise_pair : initialiseParameterInfrastructure sharedDataFactory mergingLabelling
    pairFlow.root pairMap.connections =
      .ok (⟨.passed, [pairProtocol], [], []⟩, pairMap.connections) := by
  rfl

/-- The two components share an instance. -/
theorem initialiseParameterInfrastructure_spec_pair :
    ∃ instanceOf : ParameterPort → ℕ, instanceOf pairSender = instanceOf pairReceiver := by
  obtain ⟨instanceOf, -, hiff, -⟩ := initialiseParameterInfrastructure_spec sharedDataFactory
    mergingLabelling pairFlow pairMap initialise_pair rfl
  have hmem : (pairReceiver, pairSender) ∈ pairMap.connections := List.mem_singleton.mpr rfl
  refine ⟨instanceOf, (hiff _ _ ⟨_, hmem, Or.inr rfl⟩ ⟨_, hmem, Or.inl rfl⟩).mpr ?_⟩
  exact Relation.EqvGen.rel _ _ hmem

/-- The senders are not attached as protocol inputs. -/
theorem initialiseParameterInfrastructure_inputs :
    ¬ ∀ (flow : Flow) (maps : FlatParameterMap flow.root)
        (infrastructure : ParameterInfrastructure) (finalConnections : ParameterConnectionMap),
      initialiseParameterInfrastructure sharedDataFactory mergingLabelling flow.root
        maps.connections = .ok (infrastructure, finalConnections) →
      infrastructure.result = true → ∀ p, OccursAsSender maps.connections p →
      ∃ protocol ∈ infrastructure.communicationProtocols,
        protocol.endpointOf p ∈ protocol.inputs := by
  intro h
  obtain ⟨protocol, hprotocol, hinput⟩ := h pairFlow pairMap _ _ initialise_pair rfl pairSender
    ⟨pairReceiver, List.mem_singleton.mpr rfl⟩
  rw [List.mem_singleton.mp hprotocol] at hinput
  revert hinput
  decide

end Visr
