import Mathlib.Data.List.Sort
import Mathlib.Tactic.Tauto
import Visr.Libefl.Basic
import Visr.Libvisr.Component

/-!
# Port utilities

Naming and classification of ports, the compatibility check of parameter ports and
the table of the ports of one level of the hierarchy.
-/

namespace Visr

/-! ### Ports of either kind -/

/-- The common interface of audio and parameter ports, the template parameter
`PortType` of the source. -/
class PortKind (P : Type) where
  toPortBase : P → PortBase
  /-- The ports of this kind in a component (`ports<PortType>()`). -/
  ports : Component → List P

instance : PortKind AudioPort where
  toPortBase := AudioPort.toPortBase
  ports := Component.audioPorts

instance : PortKind ParameterPort where
  toPortBase := ParameterPort.toPortBase
  ports := Component.parameterPorts

/-- Placeholder ports only pass on a signal: those of composite components, except
at the top level. -/
def isPlaceholderPort (port : PortBase) : Bool :=
  if !port.parent.isComposite then false
  else if port.parent.isTopLevel then false
  else true

def isToplevelPort (port : PortBase) : Bool := port.parent.isTopLevel

/-- `component:port`. -/
def qualifiedName (port : PortBase) : String := port.parent.name ++ ":" ++ port.name

/-- `toplevel:level1:...:leveln:port`. -/
def fullyQualifiedName (port : PortBase) : String := port.parent.fullName ++ ":" ++ port.name

theorem isPlaceholderPort_iff (port : PortBase) :
    isPlaceholderPort port = true ↔
      port.parent.isComposite = true ∧ port.parent.isTopLevel = false := by
  unfold isPlaceholderPort
  cases port.parent.isComposite <;> cases port.parent.isTopLevel <;> decide

/-! ### Compatibility of parameter ports -/

/-- The outcome of a check that writes to a message stream: it fails exactly when it has
written a message. -/
structure CheckResult where
  result : Bool
  messages : List String
  reported : result = true ↔ messages = []
  deriving DecidableEq

namespace CheckResult

/-- Nothing to complain about. -/
def passed : CheckResult := ⟨true, [], by simp⟩

/-- Reports one more problem. -/
def fail (c : CheckResult) (message : String) : CheckResult :=
  ⟨false, c.messages ++ [message], by simp⟩

/-- Reports what another check has reported. -/
def append (c c' : CheckResult) : CheckResult :=
  ⟨c.result && c'.result, c.messages ++ c'.messages, by simp [c.reported, c'.reported]⟩

@[simp] theorem passed_result : passed.result = true := rfl

@[simp] theorem fail_result (c : CheckResult) (message : String) :
    (c.fail message).result = false := rfl

@[simp] theorem append_result (c c' : CheckResult) :
    (c.append c').result = (c.result && c'.result) := rfl

end CheckResult

/-- `ParameterConfigBase::compare()`.  All classes but `InterpolationParameterConfig`
throw when the argument is of another class. -/
def ParameterConfig.compare : ParameterConfig → ParameterConfig → Except Exception Bool
  | empty, empty => .ok true
  | vector n, vector n' => .ok (n' == n)
  | matrix r c, matrix r' c' => .ok (r' == r && c' == c)
  | timeFrequency b c f, timeFrequency b' c' f' => .ok (b' == b && c' == c && f' == f)
  | interpolation _, _ => .ok true
  | _, _ => .error (.invalidArgument "Called compare() for incompatible parameter config types")

/-- `ParameterPortBaseImplementation::parameterConfig()`. -/
def ParameterPort.config (port : ParameterPort) : Except Exception ParameterConfig :=
  match port.parameterConfig with
  | some config => .ok config
  | none => .error (.logicError "ParameterConfigBase::parameterConfig(): no config set.")

/-- The text of a compatibility message, which names both ports. -/
def compatibilityMessage (what : String) (sendPort receivePort : ParameterPort)
    (problem : String) : String :=
  "AudioSignalFlow::initialiseParameterInfrastructure(): The " ++ what ++
    " of the connected parameter ports \"" ++ fullyQualifiedName sendPort.toPortBase ++
    "\" and \"" ++ fullyQualifiedName receivePort.toPortBase ++ "\" " ++ problem ++ ".\n"

/-- Checks that two connected ports use the same protocol, type and configuration.
Throws when a configuration is missing. -/
def checkParameterPortCompatibility (sendPort receivePort : ParameterPort) :
    Except Exception CheckResult := do
  let protocolCheck :=
    if sendPort.protocolType ≠ receivePort.protocolType then
      CheckResult.passed.fail
        (compatibilityMessage "communication protocols" sendPort receivePort "do not match")
    else .passed
  if sendPort.parameterType ≠ receivePort.parameterType then
    return protocolCheck.fail
      (compatibilityMessage "parameter types" sendPort receivePort "do not match")
  else
    -- the configurations are only compared when the types agree
    let sendParameterConfig ← sendPort.config
    let receiveParameterConfig ← receivePort.config
    match sendParameterConfig.compare receiveParameterConfig with
    | .ok true => return protocolCheck
    | .ok false =>
      return protocolCheck.fail
        (compatibilityMessage "parameter configurations" sendPort receivePort
          "are not compatible")
    | .error _ =>
      return protocolCheck.fail
        (compatibilityMessage "parameter configurations" sendPort receivePort
          "have different types")

/-! ### Port tables -/

/-- A set of ports in the order of their addresses (`PortTable`). -/
abbrev PortTable (P : Type) := List P

namespace PortTable

variable {P : Type} [DecidableEq P] [PortKind P]

/-- Insertion into the set; a port that is already there is not inserted again. -/
def insert (port : P) (table : PortTable P) : PortTable P :=
  if port ∈ table then table
  else table.orderedInsert
    (fun a b => (PortKind.toPortBase a).address < (PortKind.toPortBase b).address) port

/-- Insertion of a range of ports. -/
def insertAll (ports : List P) (table : PortTable P) : PortTable P :=
  ports.foldl (fun table port => insert port table) table

@[simp] theorem mem_insert {port p : P} {table : PortTable P} :
    p ∈ insert port table ↔ p = port ∨ p ∈ table := by
  unfold insert
  split
  next hmem =>
    constructor
    · exact Or.inr
    · rintro (rfl | h)
      · exact hmem
      · exact h
  next => exact List.mem_orderedInsert _

@[simp] theorem mem_insertAll {ports : List P} {p : P} {table : PortTable P} :
    p ∈ insertAll ports table ↔ p ∈ ports ∨ p ∈ table := by
  induction ports generalizing table with
  | nil => simp [insertAll]
  | cons port ports ih =>
    rw [insertAll, List.foldl_cons, ← insertAll, ih, mem_insert, List.mem_cons]
    tauto

end PortTable

/-- The ports of a component, categorised (`PortLookup`). -/
structure PortLookup (P : Type) where
  concreteSendPorts : PortTable P
  concreteReceivePorts : PortTable P
  externalCapturePorts : PortTable P
  externalPlaybackPorts : PortTable P

namespace PortLookup

variable {P : Type} [PortKind P]

/-- The ports with a given direction. -/
def withDirection (direction : Direction) (ports : List P) : List P :=
  ports.filter fun port => (PortKind.toPortBase port).direction = direction

@[simp] theorem mem_withDirection {direction : Direction} {ports : List P} {p : P} :
    p ∈ withDirection direction ports ↔
      p ∈ ports ∧ (PortKind.toPortBase p).direction = direction := by
  simp [withDirection]

variable [DecidableEq P]

/-- The lookup on a single level of the hierarchy (`recurse = false`): the ports of
the component itself count as external ones, the ports of its children as concrete
ones even if the child is composite. -/
def localPorts (comp : Component) : PortLookup P where
  concreteSendPorts := PortTable.insertAll
    (comp.components.flatMap fun c => withDirection .output (PortKind.ports c)) []
  concreteReceivePorts := PortTable.insertAll
    (comp.components.flatMap fun c => withDirection .input (PortKind.ports c)) []
  externalCapturePorts := PortTable.insertAll (withDirection .input (PortKind.ports comp)) []
  externalPlaybackPorts := PortTable.insertAll (withDirection .output (PortKind.ports comp)) []

/-- The union of external capture and concrete send ports. -/
def allNonPlaceholderSendPorts (lookup : PortLookup P) : PortTable P :=
  PortTable.insertAll lookup.externalCapturePorts lookup.concreteSendPorts

/-- The union of external playback and concrete receive ports. -/
def allNonPlaceholderReceivePorts (lookup : PortLookup P) : PortTable P :=
  PortTable.insertAll lookup.externalPlaybackPorts lookup.concreteReceivePorts

theorem mem_allNonPlaceholderSendPorts {comp : Component} {p : P} :
    p ∈ (localPorts comp).allNonPlaceholderSendPorts ↔
      (p ∈ (PortKind.ports comp : List P) ∧ (PortKind.toPortBase p).direction = .input) ∨
      ∃ c ∈ comp.components, p ∈ (PortKind.ports c : List P) ∧
        (PortKind.toPortBase p).direction = .output := by
  simp [allNonPlaceholderSendPorts, localPorts, PortTable.mem_insertAll]

theorem mem_allNonPlaceholderReceivePorts {comp : Component} {p : P} :
    p ∈ (localPorts comp).allNonPlaceholderReceivePorts ↔
      (p ∈ (PortKind.ports comp : List P) ∧ (PortKind.toPortBase p).direction = .output) ∨
      ∃ c ∈ comp.components, p ∈ (PortKind.ports c : List P) ∧
        (PortKind.toPortBase p).direction = .input := by
  simp [allNonPlaceholderReceivePorts, localPorts, PortTable.mem_insertAll]

end PortLookup

end Visr
